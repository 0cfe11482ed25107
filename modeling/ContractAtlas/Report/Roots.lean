/-
The functions of a contract from which call trees are grown.
-/

import ContractAtlas.Report.Options
import ContractAtlas.Source.Inheritance

namespace ContractAtlas.Compilation

/-- A function can be a root: it is implemented, callable from outside, not
the constructor of another contract and, unless all are wanted, it may
change the state. -/
def isRootCandidate (options : AnalysisOptions) (contract base function : Node) :
    Bool :=
  function.isImplemented &&
    function.visibility.isOneOf ["public", "external"] &&
    (options.includeAll || !function.isStatic) &&
    !(function.functionKind.isText "constructor" &&
      base.info.position != contract.info.position)

/-- The candidates of a contract and its bases, most derived first. -/
def rootCandidates (compilation : Compilation) (options : AnalysisOptions)
    (contract : Node) : List Node :=
  (compilation.linearizedBases contract).flatMap fun base =>
    (base.membersOfKind .functionDefinition).filter
      (isRootCandidate options contract base)

def firstOfEachSignature (seen : List SignatureKey) :
    List Node → Except Fault (List Node)
  | [] => .ok []
  | function :: rest =>
      match Signature.ofFunction function with
      | .error fault => .error fault
      | .ok signature =>
          match signature.key with
          | .error fault => .error fault
          | .ok key =>
              if key ∈ seen then firstOfEachSignature seen rest
              else
                match firstOfEachSignature (key :: seen) rest with
                | .error fault => .error fault
                | .ok others => .ok (function :: others)

def roots (compilation : Compilation) (options : AnalysisOptions)
    (contract : Node) : Except Fault (List Node) :=
  firstOfEachSignature [] (compilation.rootCandidates options contract)

def isDeployable (contract : Node) : Bool :=
  contract.contractKind.isText "contract" && !contract.isAbstract &&
    contract.isFullyImplemented

def eligibleContracts (options : AnalysisOptions) :
    List SourceUnit → Except Fault (List Node)
  | [] => .ok []
  | unit :: rest =>
      match options.isIgnored (unit.root.textOr "absolutePath" "") with
      | .error fault => .error fault
      | .ok ignored =>
          match eligibleContracts options rest with
          | .error fault => .error fault
          | .ok others =>
              if ignored then .ok others
              else .ok (unit.root.contracts.filter isDeployable ++ others)

end ContractAtlas.Compilation
