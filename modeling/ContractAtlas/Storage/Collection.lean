/-
The storage members of a contract.

State variables are taken from the base contracts first.  A struct variable
is opened into its fields, which keep the outermost variable as their parent;
without flattening it stays one member with its fields as parts.
-/

import ContractAtlas.Journal
import ContractAtlas.Source.Excerpt
import ContractAtlas.Source.Inheritance
import ContractAtlas.Source.Visited
import ContractAtlas.Storage.Layout

namespace ContractAtlas

namespace Compilation

def variableType (declaration : Node) : Except Fault String :=
  match declaration.typeStringOrEmpty with
  | .error fault => .error fault
  | .ok (.str type) => .ok type
  | .ok other => .error (.noOperation other.shape "strip")

def typeDefinition? (compilation : Compilation) (kind : Kind)
    (declaration : Node) : Option compilation.Place :=
  match declaration.typeName? with
  | none => none
  | some typeName =>
      if typeName.kind = .userDefinedTypeName then
        match compilation.referenced? typeName with
        | none => none
        | some place =>
            if (compilation.node place).kind = kind then some place else none
      else none

def underlyingType? (compilation : Compilation) (declaration : Node) :
    Option Node :=
  match compilation.typeDefinition? .valueTypeDefinition declaration with
  | some place => (compilation.node place).underlyingType?
  | none => none

/-- The type text that gives a variable its width. -/
def sizingType (compilation : Compilation) (declaration : Node)
    (type : String) : Except Fault Json :=
  if TypeName.isArray type.toList then .ok (.str type)
  else
    match compilation.underlyingType? declaration with
    | none => .ok (.str type)
    | some underlying =>
        match underlying.typeString with
        | .error fault => .error fault
        | .ok own => .ok (own.givenOr (underlying.name.givenOr (.str type)))

def scalarWidth (compilation : Compilation) (declaration : Node)
    (type : String) : Except Fault Nat :=
  match compilation.sizingType declaration type with
  | .error fault => .error fault
  | .ok (.str sizing) =>
      TypeName.readWidth sizing (compilation.nameOf declaration)
  | .ok other => .error (.noOperation other.shape "strip")

def memberInfo (compilation : Compilation) (declaration : Node)
    (type : String) (size : Nat) (parent : Option Provenance) : MemberInfo :=
  { name := compilation.nameOf declaration
    type := type
    size := .ofNat size
    visibility :=
      compilation.datum declaration "visibility" declaration.visibility
    mutability :=
      compilation.datum declaration "mutability" declaration.mutability
    constant := declaration.isConstant
    path := compilation.pathDatum declaration
    parent := parent }

/-- The members of variables.  The path holds the structs that are open. -/
def membersOf (compilation : Compilation) (flatten : Bool)
    (parent : Option Provenance) (path : List compilation.Place) :
    List Node → Except Fault (List Member)
  | [] => .ok []
  | declaration :: rest =>
      match variableType declaration with
      | .error fault => .error fault
      | .ok type =>
          if TypeName.isStruct type.toList then
            match compilation.typeDefinition? .structDefinition declaration with
            | none =>
                .error (.structUnresolved declaration.name type)
            | some struct =>
                if _open : struct ∈ path then
                  .error (.structRecursive (compilation.node struct).canonicalName)
                else
                  let provenance : Provenance :=
                    parent.getD
                      { type := type, name := compilation.nameOf declaration }
                  match membersOf compilation flatten (some provenance)
                      (struct :: path) (compilation.node struct).structFields with
                  | .error fault => .error fault
                  | .ok fields =>
                      match membersOf compilation flatten parent path rest with
                      | .error fault => .error fault
                      | .ok others =>
                          if flatten then .ok (fields ++ others)
                          else
                            .ok
                              (.mk
                                (compilation.memberInfo declaration type
                                  TypeName.slotSize parent)
                                (some fields) :: others)
          else
            match compilation.scalarWidth declaration type with
            | .error fault => .error fault
            | .ok size =>
                match membersOf compilation flatten parent path rest with
                | .error fault => .error fault
                | .ok others =>
                    .ok
                      (.mk (compilation.memberInfo declaration type size parent)
                        none :: others)
termination_by declarations =>
  (compilation.unvisited path, declarations.length)
decreasing_by
  · exact Prod.Lex.left _ _ (compilation.unvisited_cons_lt _open)
  · exact Prod.Lex.right _ (Nat.lt_succ_self _)
  · exact Prod.Lex.right _ (Nat.lt_succ_self _)

def constantOf (compilation : Compilation) (declaration : Node) :
    Except Fault Constant := do
  let type ← declaration.typeStringOrEmpty
  let source ← compilation.sourceText declaration
  return {
    name := compilation.nameOf declaration
    type := compilation.datum declaration "typeString" type
    visibility :=
      compilation.datum declaration "visibility" declaration.visibility
    mutability :=
      compilation.datum declaration "mutability" declaration.mutability
    constant := declaration.isConstant
    source := source
    path := compilation.pathDatum declaration }

def collectFrom (compilation : Compilation) (flatten : Bool) :
    List Node → Except Fault (List Member × List Constant)
  | [] => .ok ([], [])
  | declaration :: rest =>
      if declaration.isStorageFree then do
        let constant ← compilation.constantOf declaration
        let (members, constants) ← collectFrom compilation flatten rest
        return (members, constant :: constants)
      else do
        let own ← compilation.membersOf flatten none [] [declaration]
        let (members, constants) ← collectFrom compilation flatten rest
        return (own ++ members, constants)

/-- The state variables of a contract and its bases, most-base first. -/
def stateVariables (compilation : Compilation) (contract : Node) : List Node :=
  compilation.definitionsOfKind .variableDeclaration contract

def collect (compilation : Compilation) (flatten : Bool) (contract : Node) :
    Except Fault (List Member × List Constant) :=
  compilation.collectFrom flatten (compilation.stateVariables contract)

def layout (compilation : Compilation) (flatten : Bool) (contract : Node) :
    Except Fault Layout := do
  let (members, constants) ← compilation.collect flatten contract
  let layout ← Storage.layOut members
  return { layout with constants := constants }

def layoutNoted (compilation : Compilation) (flatten : Bool)
    (contract : Node) : Journal Layout := do
  let (members, constants) ←
    Journal.ofExcept (compilation.collect flatten contract)
  let groups ← Journal.ofExcept (Storage.pack members)
  Journal.logAll
    ((Storage.largeArrays groups).map fun array => .largeArray array.1 array.2)
  let numbered ← Journal.ofExcept (Storage.number groups)
  let layout := { numbered with constants := constants }
  Journal.log
    (.layoutComputed contract.name members.length layout.slots.length
      constants.length)
  return layout

theorem outcome_layoutNoted (compilation : Compilation) (flatten : Bool)
    (contract : Node) :
    (compilation.layoutNoted flatten contract).outcome =
      compilation.layout flatten contract := by
  unfold layoutNoted layout Storage.layOut
  rw [Journal.outcome_bind]
  cases compilation.collect flatten contract with
  | error fault => rfl
  | ok collected =>
      show (Journal.outcome (_ >>= _)) = _
      rw [Journal.outcome_bind]
      cases packed : Storage.pack collected.1 with
      | error fault =>
          simp only [Journal.ofExcept, Except.bind, bind, packed]
      | ok groups =>
          cases numbered : Storage.number groups with
          | error fault =>
              simp only [Journal.ofExcept, Except.bind, bind, packed, numbered,
                Journal.bind, Journal.logAll]
          | ok found =>
              simp only [Journal.ofExcept, Except.bind, bind, packed, numbered,
                pure, Except.pure, Journal.bind, Journal.logAll, Journal.log,
                Journal.pure]

end Compilation

end ContractAtlas
