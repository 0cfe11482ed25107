/-
Reading compiler output.

Three shapes are read: build information with the output under `output`, a
compiler's own output with `sources`, and a bare mapping from paths to trees.
-/

import ContractAtlas.Journal
import ContractAtlas.Source.Compilation

namespace ContractAtlas.Reading

def entryOrNull (entries : List (String × Json)) (key : String) : Json :=
  (entries.lookup key).getD .null

/-- An object's entries; a value that is not given has none. -/
def entriesFor (operation : String) (value : Json) :
    Except Fault (List (String × Json)) :=
  if value.isGiven then
    match value with
    | .obj entries => .ok entries
    | other => .error (.noOperation other.shape operation)
  else .ok []

def contentsOf (output : List (String × Json)) :
    Except Fault (List (String × String)) := do
  let input ← entriesFor "get" (entryOrNull output "input")
  let sources ← entriesFor "items" (entryOrNull input "sources")
  return sources.filterMap fun (path, source) =>
    match source with
    | .obj entries =>
        match entries.lookup "content" with
        | some (.str content) => some (path, content)
        | _ => none
    | _ => none

def sourcesOf (output : List (String × Json)) :
    Except Fault (List (String × Json)) :=
  match entryOrNull output "output" with
  | .obj entries => entriesFor "items" (entryOrNull entries "sources")
  | _ =>
      match entryOrNull output "sources" with
      | .obj entries => .ok entries
      | _ => .ok output

inductive Offer where
  | tree (value : Json)
  | skipped
  | nothing

def offerOf : Json → Offer
  | .obj entries =>
      if (entries.lookup "nodeType").isSome then .tree (.obj entries)
      else
        match (entryOrNull entries "ast").givenOr (entryOrNull entries "AST") with
        | .null => .skipped
        | value => .tree value
  | _ => .nothing

def treesOf (sources : List (String × Json)) : List (String × Json) :=
  sources.filterMap fun (path, value) =>
    match offerOf value with
    | .tree tree => some (path, tree)
    | _ => none

def skippedPaths (sources : List (String × Json)) : List String :=
  sources.filterMap fun (path, value) =>
    match offerOf value with
    | .skipped => some path
    | _ => none

/-- The fault of a node whose type or id cannot be filed. -/
def nodeFault? (node : Node) : Option Fault :=
  match node.nodeType.key? with
  | none => some (.noKey node.nodeType.shape)
  | some _ =>
      match node.id.key? with
      | none => some (.noKey node.id.shape)
      | some _ => none

/-- The content of a unit: by the path of its entry, else by its own path. -/
def contentFor (contents : List (String × String)) (path : String)
    (root : Node) : Except Fault String :=
  let byEntry := (contents.lookup path).getD ""
  if !byEntry.isEmpty then .ok byEntry
  else
    match root.textOr "absolutePath" "" with
    | .str own => .ok ((contents.lookup own).getD "")
    | other =>
        match other.key? with
        | some _ => .ok ""
        | none => .error (.noKey other.shape)

def unitOf (contents : List (String × String)) (path : String) (tree : Json) :
    Except Fault (Node × String) :=
  match Node.ofValue? "" false tree with
  | none => .error (.notSourceUnit path)
  | some root =>
      if root.kind = .sourceUnit then
        match root.preorder.findSome? nodeFault? with
        | some fault => .error fault
        | none =>
            match contentFor contents path root with
            | .error fault => .error fault
            | .ok content => .ok (root, content)
      else .error (.notSourceUnit path)

def unitsOf (contents : List (String × String)) :
    List (String × Json) → Except Fault (List (Node × String))
  | [] => .ok []
  | (path, tree) :: rest =>
      match unitOf contents path tree with
      | .error fault => .error fault
      | .ok unit =>
          match unitsOf contents rest with
          | .error fault => .error fault
          | .ok others => .ok (unit :: others)

def compile (contents : List (String × String))
    (sources : List (String × Json)) : Except Fault Compilation :=
  let trees := treesOf sources
  if trees.isEmpty && !sources.isEmpty then .error .noSyntaxTrees
  else
    match unitsOf contents trees with
    | .error fault => .error fault
    | .ok units => Compilation.ofUnits units

def read? (output : Json) : Except Fault Compilation :=
  match output with
  | .obj entries =>
      match contentsOf entries with
      | .error fault => .error fault
      | .ok contents =>
          match sourcesOf entries with
          | .error fault => .error fault
          | .ok sources => compile contents sources
  | _ => .error .outputNotObject

def skippedEntries (output : Json) : List String :=
  match output with
  | .obj entries =>
      match contentsOf entries, sourcesOf entries with
      | .ok _, .ok sources => skippedPaths sources
      | _, _ => []
  | _ => []

def read (output : Json) : Journal Compilation := do
  Journal.logAll ((skippedEntries output).map .entrySkipped)
  let compilation ← Journal.ofExcept (read? output)
  Journal.log (.treesRead compilation.units.length compilation.index.size)
  return compilation

end ContractAtlas.Reading
