/-
Reports on single contracts: call trees, storage layout and declared
elements.
-/

import ContractAtlas.Report.Roots
import ContractAtlas.Storage.Collection

namespace ContractAtlas

structure CallStats where
  totalNodes : Nat := 0
  externalCalls : Nat := 0
  mutatingCalls : Nat := 0
  staticCalls : Nat := 0

namespace CallStats

def total (count : CallNode → Nat) : List CallNode → Nat
  | [] => 0
  | root :: rest => count root + total count rest

def ofRoots (roots : List CallNode) : CallStats :=
  { totalNodes := total CallNode.countNodes roots
    externalCalls := total CallNode.countExternal roots
    mutatingCalls := total CallNode.countMutating roots
    staticCalls := total CallNode.countStatic roots }

def document (stats : CallStats) : Document :=
  .fields
    [("total_nodes", .count stats.totalNodes),
      ("external_calls", .count stats.externalCalls),
      ("mutating_external_calls", .count stats.mutatingCalls),
      ("static_external_calls", .count stats.staticCalls)]

end CallStats

structure Element where
  name : Datum
  source : Except Fault String
  path : Datum

def Element.document (element : Element) : Except Fault Document := do
  let source ← element.source
  return .fields
    [("name", .value element.name), ("source", .text source),
      ("absolute_path", .value element.path)]

/-- The declarations of a contract and its bases, most-base first. -/
structure Elements where
  events : List Element := []
  structs : List Element := []
  errors : List Element := []
  enums : List Element := []
  valueTypes : List Element := []

namespace Elements

def counts (elements : Elements) : Document :=
  .fields
    [("events", .count elements.events.length),
      ("structs", .count elements.structs.length),
      ("errors", .count elements.errors.length),
      ("enums", .count elements.enums.length),
      ("udts", .count elements.valueTypes.length)]

def document (elements : Elements) : Except Fault Document := do
  let events ← elements.events.mapM Element.document
  let structs ← elements.structs.mapM Element.document
  let errors ← elements.errors.mapM Element.document
  let enums ← elements.enums.mapM Element.document
  let valueTypes ← elements.valueTypes.mapM Element.document
  return .fields
    [("events", .list events), ("structs", .list structs),
      ("errors", .list errors), ("enums", .list enums),
      ("user_defined_value_types", .list valueTypes)]

end Elements

structure ContractReport where
  name : Datum
  path : Datum
  roots : List CallNode := []
  /-- Nothing when the layout could not be computed. -/
  layout : Option Layout := none
  layoutError : Document := .null
  elements : Elements := {}

namespace ContractReport

def stats (report : ContractReport) : CallStats :=
  CallStats.ofRoots report.roots

/-- Adds the counters of a root; a later root of the same name replaces an
earlier one. -/
def putStats (name : Json) (stats : CallStats) :
    List (Json × CallStats) → List (Json × CallStats)
  | [] => [(name, stats)]
  | (other, old) :: rest =>
      if other.key? = name.key? then (other, stats) :: rest
      else (other, old) :: putStats name stats rest

def rootStats (report : ContractReport) : List (Json × CallStats) :=
  report.roots.foldl
    (fun stats root => putStats root.name (CallStats.ofRoots [root]) stats) []

def functionDocument (root : CallNode) : Document :=
  .fields
    [("name", .value root.info.name),
      ("state_mutability",
        match root.info.declaration with
        | some declaration => .value declaration.mutability
        | none => .null),
      ("stats", (CallStats.ofRoots [root]).document),
      ("call_tree", root.document)]

def document (report : ContractReport) : Except Fault Document := do
  let elements ← report.elements.document
  let internal ← CallNode.internalDocument report.roots
  return .fields
    [("name", .value report.name), ("source_path", .value report.path),
      ("functions", .list (report.roots.map functionDocument)),
      ("storage",
        match report.layout with
        | some layout => layout.document
        | none => .null),
      ("storage_error", report.layoutError), ("elements", elements),
      ("element_summary", report.elements.counts),
      ("internal_functions", internal), ("stats", report.stats.document)]

end ContractReport

namespace Compilation

def element (compilation : Compilation) (node : Node) : Element :=
  { name := compilation.nameOf node
    source := compilation.sourceText node
    path := compilation.pathDatum node }

def elementsOfKind (compilation : Compilation) (kind : Kind)
    (contract : Node) : List Element :=
  (compilation.definitionsOfKind kind contract).map compilation.element

def elements (compilation : Compilation) (contract : Node) : Elements :=
  { events := compilation.elementsOfKind .eventDefinition contract
    structs := compilation.elementsOfKind .structDefinition contract
    errors := compilation.elementsOfKind .errorDefinition contract
    enums := compilation.elementsOfKind .enumDefinition contract
    valueTypes := compilation.elementsOfKind .valueTypeDefinition contract }

def treesOf (compilation : Compilation) (options : TreeOptions) :
    List Node → Journal (List CallNode)
  | [] => pure []
  | function :: rest => do
      match compilation.place? function.info.position with
      | none => compilation.treesOf options rest
      | some place =>
          let tree ← compilation.callTree options place
          let others ← compilation.treesOf options rest
          return tree :: others

def callTrees (compilation : Compilation) (options : AnalysisOptions)
    (contract : Node) : Journal (List CallNode) := do
  let roots ← Journal.ofExcept (compilation.roots options contract)
  compilation.treesOf options.trees roots

def layoutDiagnostic (fault : Fault) : Document :=
  match fault with
  | .unknownType type member =>
      .fields
        [("kind", .text "UnknownType"), ("type", .text type),
          ("member", .value member), ("message", .text fault.message)]
  | other =>
      .fields [("kind", .text "LayoutError"), ("message", .text other.message)]

def layoutEvent (contract : Json) (fault : Fault) : Event :=
  match fault with
  | .unknownType type member => .typeUnknown contract type member.value
  | other => .layoutFailed contract other.message

def isLayoutDiagnostic (fault : Fault) : Bool :=
  match fault with
  | .unknownType _ _ => true
  | other => other.isLayout

/-- Analyses one contract.  A layout that cannot be computed is noted; any
other fault ends the analysis. -/
def analyze (compilation : Compilation) (options : AnalysisOptions)
    (contract : Node) : Journal ContractReport := do
  let trees ← compilation.callTrees options contract
  let report : ContractReport :=
    { name := compilation.nameOf contract
      path := compilation.pathDatum contract
      roots := trees
      elements := compilation.elements contract }
  let layout := compilation.layoutNoted true contract
  Journal.logAll layout.events
  match layout.outcome with
  | .ok found => return { report with layout := some found }
  | .error fault =>
      if isLayoutDiagnostic fault then
        Journal.log (layoutEvent contract.name fault)
        return { report with layoutError := layoutDiagnostic fault }
      else Journal.fail fault

end Compilation

end ContractAtlas
