/-
Results of runs as text: JSON, YAML or a summary for people.
-/

import ContractAtlas.Report.Run
import ContractAtlas.Yaml.Printer

namespace ContractAtlas

inductive Format where
  | json
  | yaml
  | summary
deriving DecidableEq

namespace Format

def name : Format → String
  | json => "json"
  | yaml => "yaml"
  | summary => "summary"

def all : List Format :=
  [json, yaml, summary]

def ofName? (text : String) : Option Format :=
  all.find? fun format => format.name == text

def ofName (text : String) : Except Fault Format :=
  match ofName? text with
  | some format => .ok format
  | none => .error (.unsupportedFormat text)

end Format

namespace ContractReport

def storageLine (report : ContractReport) : Except Fault String :=
  match report.layout with
  | some layout =>
      .ok
        (toString layout.slots.length ++ " slots, " ++
          toString layout.constants.length ++ " constants")
  | none =>
      match report.layoutError.json with
      | .obj [] => .ok "unavailable"
      | .obj entries =>
          match entries.lookup "message" with
          | some message => .ok ("unavailable (" ++ message.spelling ++ ")")
          | none => .error (.entryMissing "message")
      | other =>
          if other.isGiven then .error (.noEntries other.shape)
          else .ok "unavailable"

def summaryLines (showTrees : Bool) (report : ContractReport) :
    Except Fault (List String) := do
  let stats := report.stats
  let storage ← report.storageLine
  let trees :=
    if showTrees then report.roots.map fun root => root.outline 2 else []
  let lines :=
    ["",
      "Contract " ++ report.name.value.spelling ++ " (" ++
        report.path.value.spelling ++ ")",
      "  Functions: " ++ toString report.roots.length ++ ", call nodes: " ++
        toString stats.totalNodes ++ ", external calls: " ++
        toString stats.externalCalls ++ " (mutating: " ++
        toString stats.mutatingCalls ++ ", static: " ++
        toString stats.staticCalls ++ ")",
      "  Storage: " ++ storage]
  return lines ++ trees

end ContractReport

namespace RunResult

def summaryText (showTrees : Bool) (result : RunResult) :
    Except Fault String := do
  let summary := result.summary
  let reports ← result.reports.mapM (ContractReport.summaryLines showTrees)
  return "\n".intercalate
    (["Analysis Summary", "================",
        "Succeeded: " ++ toString summary.succeeded.length,
        "Skipped:   " ++ toString summary.skipped.length,
        "Failed:    " ++ toString summary.failed.length] ++
      summary.failed.map
        (fun failure =>
          "  " ++ failure.1.value.spelling ++ ": " ++
            failure.2.value.spelling) ++
      reports.flatten)

def render (format : Format) (result : RunResult) : Except Fault String :=
  match format with
  | .summary => result.summaryText true
  | .json => do return (← result.document).json.block
  | .yaml => do return Yaml.render (← result.document)

end RunResult

/-- What is written to a file: a summary gets a final line feed. -/
def Format.fileText (format : Format) (text : String) : String :=
  if format = summary then text ++ "\n" else text

def RunResult.renderAs (result : RunResult) (format : String) :
    Except Fault String := do
  result.render (← Format.ofName format)

end ContractAtlas
