/-
Batch runs: every contract is analysed, and a fault of one of them does not
stop the others.
-/

import ContractAtlas.Artifact.Selection
import ContractAtlas.Report.Contract

namespace ContractAtlas

structure RunSummary where
  succeeded : List Datum := []
  skipped : List Datum := []
  failed : List (Datum × Datum) := []

def RunSummary.document (summary : RunSummary) : Document :=
  .fields
    [("succeeded", .list (summary.succeeded.map .value)),
      ("skipped", .list (summary.skipped.map .value)),
      ("failed",
        .list
          (summary.failed.map fun (name, error) =>
            .fields [("name", .value name), ("error", .value error)]))]

structure RunResult where
  summary : RunSummary := {}
  reports : List ContractReport := []

namespace RunResult

def empty : RunResult := {}

def append (first second : RunResult) : RunResult :=
  { summary :=
      { succeeded := first.summary.succeeded ++ second.summary.succeeded
        skipped := first.summary.skipped ++ second.summary.skipped
        failed := first.summary.failed ++ second.summary.failed }
    reports := first.reports ++ second.reports }

def document (result : RunResult) : Except Fault Document := do
  let reports ← result.reports.mapM ContractReport.document
  return .fields
    [("summary", result.summary.document), ("contracts", .list reports)]

/-- The result for one contract: failed, skipped without roots, or succeeded
with its report. -/
def ofOutcome (name : Datum) (outcome : Except Fault ContractReport) :
    RunResult :=
  match outcome with
  | .error fault => { summary := { failed := [(name, .text fault.message)] } }
  | .ok report =>
      if report.roots.isEmpty then { summary := { skipped := [name] } }
      else { summary := { succeeded := [name] }, reports := [report] }

end RunResult

namespace Compilation

/-- Analyses a contract and keeps a fault as its outcome. -/
def analyzeSafely (compilation : Compilation) (options : AnalysisOptions)
    (contract : Node) : Journal RunResult :=
  let analysis := compilation.analyze options contract
  let failure :=
    match analysis.outcome with
    | .error _ => [Event.contractFailed contract.name]
    | .ok _ => []
  { events := analysis.events ++ failure
    outcome :=
      .ok (RunResult.ofOutcome (compilation.nameOf contract) analysis.outcome) }

def analyzeAll (compilation : Compilation) (options : AnalysisOptions) :
    List Node → Journal RunResult
  | [] => pure RunResult.empty
  | contract :: rest => do
      let first ← compilation.analyzeSafely options contract
      let others ← compilation.analyzeAll options rest
      return first.append others

def run (compilation : Compilation) (options : AnalysisOptions)
    (contracts : List Node) : Journal RunResult := do
  let result ← compilation.analyzeAll options contracts
  Journal.log
    (.runFinished result.summary.succeeded.length result.summary.skipped.length
      result.summary.failed.length)
  return result

def analyzeUnits (compilation : Compilation) (options : AnalysisOptions)
    (units : List SourceUnit) : Journal RunResult := do
  let contracts ← Journal.ofExcept (eligibleContracts options units)
  Journal.log (.runStarted contracts.length options.workers)
  compilation.run options contracts

def analyzeFile (compilation : Compilation) (options : AnalysisOptions)
    (working : List Char) (file : String) (root : Option String) :
    Journal RunResult := do
  let unit ←
    Journal.ofExcept (Selection.select working compilation.units file root)
  let contracts :=
    unit.root.contracts.filter fun contract =>
      contract.contractKind.isText "contract"
  Journal.log
    (.fileStarted (unit.root.textOr "absolutePath" "") contracts.length)
  compilation.run options contracts

end Compilation

end ContractAtlas
