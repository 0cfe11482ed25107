/-
The program: it takes in the files that a command line needs, carries the
command line out and writes what it leaves behind.
-/

import ContractAtlas.CommandLine.Run
import ContractAtlas.Json.Printer

namespace ContractAtlas.Program

def stampOf (seconds : Int) (nanoseconds : Nat) : Stamp :=
  some (seconds * 1000000000 + nanoseconds)

def takeIn (store : FileStore) (path : String) : IO FileStore := do
  let place := (← IO.currentDir) / path
  if ← place.isDir then return store.makeFolder path
  else if ← place.pathExists then
    let bytes ← IO.FS.readBinFile place
    let modified := (← place.metadata).modified
    return store.writeDeep path bytes.toList
      (stampOf modified.sec modified.nsec.toNat)
  else return store

def takeInFolder (store : FileStore) (path : String) : IO FileStore := do
  let place := (← IO.currentDir) / path
  if ← place.isDir then
    let mut taken := store.makeFolder path
    for entry in ← place.readDir do
      taken ← takeIn taken (path ++ "/" ++ entry.fileName)
    return taken
  else return store

/-- Takes in the artifact of a path: a file, or the build information of a
project. -/
def takeInArtifact (store : FileStore) (path : String) : IO FileStore := do
  let entered ← takeIn store path
  if entered.isFolder path then
    let config := String.ofList (Path.join path.toList Project.configName)
    let configured ← takeIn entered config
    match (Project.outputDirectory configured path).outcome with
    | .error _ => return configured
    | .ok output =>
        takeInFolder configured
          (String.ofList (Path.join output.toList Project.buildInfoName))
  else return entered

def takeInAll (arguments : Arguments) : IO FileStore := do
  let working := (← IO.currentDir).toString
  let mut store := FileStore.empty working.toList
  for path in arguments.paths do
    store ← takeInArtifact store path
  let output := arguments.outputPath
  if output.isEmpty then return store
  else
    let folder := FileStore.folderOf output
    if !folder.isEmpty then store ← takeIn store folder
    takeIn store output

def putOut (arguments : Arguments) (ending : CommandLine.Ending) : IO Unit := do
  let output := arguments.outputPath
  if ending.exitCode = 0 && !output.isEmpty then
    match ending.outcome.files.read output with
    | .ok bytes => IO.FS.writeBinFile output ⟨bytes.toArray⟩
    | .error _ => return ()

def logLine (asJson : Bool) (event : Event) : String :=
  if asJson then event.document.line
  else
    let fields := event.fields.map fun field =>
      " " ++ field.1 ++ "=" ++ field.2.spelling
    "[" ++ event.level.name ++ "] " ++ event.title ++ String.join fields

def usage : String :=
  "usage: contract-atlas [-h] [--file FILE] [--include-all] [--include-deps] " ++
    "[--no-static] [--include-low-level] [--ignore PREFIX] " ++
    "[--workers WORKERS] [--format FORMAT] [--output OUTPUT] [--verbose] " ++
    "[--log-json] paths [paths ...]"

def carryOut (arguments : Arguments) : IO UInt32 := do
  match CommandLine.run (← takeInAll arguments) arguments with
  | .error fault =>
      IO.eprintln fault.message
      return 1
  | .ok ending =>
      for event in CommandLine.shown arguments ending.events do
        IO.eprintln (logLine arguments.logJson event)
      putOut arguments ending
      IO.print ending.outcome.printed
      return ending.exitCode.toUInt32

end ContractAtlas.Program

def main (arguments : List String) : IO UInt32 := do
  match ContractAtlas.CommandLine.accept arguments with
  | .error refusal =>
      IO.eprintln ContractAtlas.Program.usage
      return refusal.exitCode.toUInt32
  | .ok accepted => ContractAtlas.Program.carryOut accepted
