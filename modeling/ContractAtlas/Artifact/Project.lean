/-
Compiler artifacts of a project: the output directory that its configuration
names, and the newest build information in it.
-/

import ContractAtlas.Artifact.FileStore
import ContractAtlas.Json.Reader
import ContractAtlas.Journal
import ContractAtlas.Toml.Reader

namespace ContractAtlas.Project

def configName : List Char := "foundry.toml".toList

def defaultOutput : List Char := "out".toList

def buildInfoName : List Char := "build-info".toList

def unifyLines : List Char → List Char
  | [] => []
  | '\r' :: '\n' :: rest => '\n' :: unifyLines rest
  | '\r' :: rest => '\n' :: unifyLines rest
  | c :: rest => c :: unifyLines rest

/-- The fault of a flaw that does not just spoil the configuration. -/
def faultOf? : Toml.Flaw → Option Fault
  | .malformed => none
  | .truncated => some .configTruncated
  | .notTable => some .configNotTable
  | .notList => some .configNotList
  | .unnamed => some .configUnnamed
  | .overflow => some .configOverflow

/-- The entries of a configuration file.  A malformed file is noted and counts
as empty. -/
def readConfig (store : FileStore) (path : String) :
    Journal (List (List Char × Toml.Value)) := do
  let text ← Journal.ofExcept (store.readText path)
  match Toml.read (unifyLines text) with
  | .ok (.table entries) => return entries
  | .ok _ => return []
  | .error flaw =>
      match faultOf? flaw with
      | some fault => Journal.fail fault
      | none =>
          Journal.log (.configRejected path)
          return []

def given? (key : String) (entries : List (List Char × Toml.Value)) :
    Option Toml.Value :=
  (entries.lookup key.toList).filter Toml.Value.isGiven

def tableOf : Option Toml.Value →
    Except Fault (List (List Char × Toml.Value))
  | none => .ok []
  | some (.table entries) => .ok entries
  | some _ => .error .profileNotTable

/-- The output directory that a configuration names: in the default profile,
or at the top. -/
def namedOutput (config : List (List Char × Toml.Value)) :
    Except Fault (Option (List Char)) := do
  let profiles ← tableOf (given? "profile" config)
  let profile ← tableOf (given? "default" profiles)
  match (given? "out" profile).or (given? "out" config) with
  | none => return none
  | some (.text path) => return some path
  | some _ => throw .notPath

def outputDirectory (store : FileStore) (root : String) : Journal String := do
  let config := String.ofList (Path.join root.toList configName)
  let named ←
    if store.isFile config then do
      Journal.ofExcept (namedOutput (← readConfig store config))
    else pure none
  return String.ofList
    (Path.absolute store.working
      (Path.join root.toList (named.getD defaultOutput)))

/-- The later one of two files; the first if they are of the same time. -/
def laterOf (store : FileStore) (first second : String) : String :=
  match store.entry first, store.entry second with
  | .ok early, .ok late =>
      if early.stamp.isBefore late.stamp then second else first
  | _, _ => first

def latestBuildInfo (store : FileStore) (folder : String) : Option String :=
  let files := (store.names folder).filter fun name =>
    (Text.dropEnding? ".json".toList name).isSome
  let paths := files.map fun name =>
    String.ofList (Path.join folder.toList name)
  if store.isFolder folder then
    match paths with
    | [] => none
    | first :: rest => some (rest.foldl (laterOf store) first)
  else none

/-- The artifact of a path: the file itself, or the newest build information
of a project. -/
def resolve (store : FileStore) (path : String) : Journal String := do
  if store.isFile path then return path
  else if store.isFolder path then
    let output ← outputDirectory store path
    let folder := String.ofList (Path.join output.toList buildInfoName)
    match latestBuildInfo store folder with
    | some latest =>
        Journal.log (.buildInfoChosen latest)
        return latest
    | none => Journal.fail (.buildInfoMissing folder)
  else Journal.fail (.artifactPathMissing path)

/-- Limits on the documents in artifact files.  The nesting is limited because a
deeper file is refused by the reader itself, with a fault of its own, before
anything else looks at it.  Each list or object takes one of a thousand calls
that may be open at once, and twelve are open where a project is loaded.  The
passes over a document that has been read are total and have no such limit. -/
def limits : Json.Limits :=
  { digits := some Text.decimalLimit, depth := some 988 }

def load (store : FileStore) (path : String) : Except Fault Json :=
  match store.readText path with
  | .error (.fileMissing _) => .error (.artifactFileMissing path)
  | .error fault => .error fault
  | .ok text =>
      match Json.readWithin limits (String.ofList text) with
      | .ok document => .ok document
      | .error .malformed => .error (.artifactNotJson path)
      | .error (.overlong digits) => .error (.numberTooLong digits)
      | .error .tooDeep => .error .documentTooDeep

end ContractAtlas.Project
