/-
Carrying out a command line: every artifact is analysed in turn, and the
result is printed or written to a file.
-/

import ContractAtlas.Artifact.Cache
import ContractAtlas.CommandLine.Arguments

namespace ContractAtlas.CommandLine

def analyzeArtifact (files : FileStore) (arguments : Arguments) (path : String)
    (cache : Cache) : Journal (Cache × RunResult) := do
  let artifact ← Project.resolve files path
  let (kept, found) ← cache.get files artifact
  let compilation := found.compilation
  let options := arguments.options
  let file := arguments.filePath
  if file.isEmpty then
    return (kept, ← compilation.analyzeUnits options compilation.units)
  else
    let root :=
      if files.isFolder path then path else String.ofList files.working
    return (kept,
      ← compilation.analyzeFile options files.working file (some root))

def analyzeArtifacts (files : FileStore) (arguments : Arguments)
    (cache : Cache) : List String → Journal RunResult
  | [] => pure RunResult.empty
  | path :: rest => do
      let (kept, first) ← analyzeArtifact files arguments path cache
      let others ← analyzeArtifacts files arguments kept rest
      return first.append others

structure Outcome where
  files : FileStore
  printed : String

def deliver (files : FileStore) (path : String) (format : Format)
    (text : String) : Journal Outcome := do
  if path.isEmpty then return { files := files, printed := text ++ "\n" }
  else
    let bytes := Text.Utf8.encode (format.fileText text).toList
    let changed ← Journal.ofExcept (files.write path bytes none)
    Journal.log (.exported format.name path)
    return { files := changed, printed := "" }

/-- The fault of an option whose value is nothing where one is needed from the
start. -/
def operandFault? (arguments : Arguments) : Option Fault :=
  match arguments.workers with
  | .nothing => some .valueMissing
  | .given _ =>
      if arguments.ignore.any fun start =>
          match start with
          | .nothing => true
          | .given _ => false
      then some .valueMissing
      else none

def execute (files : FileStore) (arguments : Arguments) : Journal Outcome := do
  match operandFault? arguments with
  | some fault => Journal.fail fault
  | none =>
      let result ← analyzeArtifacts files arguments Cache.empty arguments.paths
      match arguments.format with
      | .nothing => Journal.fail (.unsupportedFormat "[]")
      | .given format =>
          let text ← Journal.ofExcept (result.render format)
          deliver files arguments.outputPath format text

def accept (arguments : List String) : Except Refusal Arguments := do
  let accepted ← parse arguments
  if accepted.workers.getD 1 < 1 then throw .usage
  return accepted

structure Ending where
  exitCode : Nat
  events : List Event
  outcome : Outcome

/-- Carries out a command line.  Faults of the analysis and of files are
noted and end the run with a code of their own; any other fault is left to the
caller. -/
def run (files : FileStore) (arguments : Arguments) : Except Fault Ending :=
  let journal := execute files arguments
  match journal.outcome with
  | .ok outcome =>
      .ok { exitCode := 0, events := journal.events, outcome := outcome }
  | .error fault =>
      if fault.isAnalysis || fault.isFile then
        .ok
          { exitCode := 1
            events := journal.events ++ [.runFailed fault.message]
            outcome := { files := files, printed := "" } }
      else .error fault

def shown (arguments : Arguments) (events : List Event) : List Event :=
  if arguments.verbose then events
  else events.filter fun event => event.level ≠ .debug

end ContractAtlas.CommandLine
