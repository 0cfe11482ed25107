/-
Files and folders, as a run sees them.

Every entry is kept under the components of its path from the root.  A path
is followed component by component, and each one before the last has to be a
folder.
-/

import ContractAtlas.Artifact.Path
import ContractAtlas.Fault
import ContractAtlas.Text.Utf8

namespace ContractAtlas

/-- A time of modification; nothing stands for the time of the run itself,
which is later than all times that are given. -/
abbrev Stamp := Option Int

def Stamp.isBefore (first second : Stamp) : Bool :=
  match first, second with
  | some earlier, some later => earlier < later
  | some _, none => true
  | none, _ => false

inductive Entry where
  | file (bytes : List UInt8) (stamp : Stamp)
  | folder (stamp : Stamp)

def Entry.stamp : Entry → Stamp
  | file _ stamp => stamp
  | folder stamp => stamp

structure FileStore where
  working : List Char
  entries : List (List (List Char) × Entry) := []

namespace FileStore

/-- Sets an entry; one that is there keeps its place. -/
def putEntry (parts : List (List Char)) (entry : Entry) :
    List (List (List Char) × Entry) → List (List (List Char) × Entry)
  | [] => [(parts, entry)]
  | (other, old) :: rest =>
      if other = parts then (other, entry) :: rest
      else (other, old) :: putEntry parts entry rest

def entryAt? (store : FileStore) (parts : List (List Char)) : Option Entry :=
  if parts.isEmpty then some (.folder none) else store.entries.lookup parts

/-- A folder in which a name is made or removed changes at that time. -/
def touch (store : FileStore) (parts : List (List Char)) : FileStore :=
  match store.entries.lookup parts with
  | some (.folder _) =>
      { store with entries := putEntry parts (.folder none) store.entries }
  | _ => store

def put (store : FileStore) (parts : List (List Char)) (entry : Entry) :
    FileStore :=
  let ready :=
    if (store.entryAt? parts).isSome then store else store.touch parts.dropLast
  { ready with entries := putEntry parts entry ready.entries }

def makeFolders (store : FileStore) (above : List (List Char)) :
    List (List Char) → FileStore
  | [] => store
  | part :: rest =>
      let parts := above ++ [part]
      let made :=
        match store.entryAt? parts with
        | some _ => store
        | none => store.put parts (.folder none)
      made.makeFolders parts rest

def empty (working : List Char) : FileStore :=
  ({ working := working } : FileStore).makeFolders [] (Path.components working)

def nameLimit : Nat := 255

def pathLimit : Nat := 4095

def follow (store : FileStore) (path : String) (above : List (List Char)) :
    List (List Char) → Except Fault (List (List Char))
  | [] => .ok above
  | part :: rest =>
      match store.entryAt? above with
      | none => .error (.fileMissing path)
      | some (.file _ _) => .error (.fileNotDirectory path)
      | some (.folder _) =>
          if part = [] ∨ part = Path.here then store.follow path above rest
          else if part = Path.up then store.follow path above.dropLast rest
          else if nameLimit < (Text.Utf8.encode part).length then
            .error (.fileNameTooLong path)
          else store.follow path (above ++ [part]) rest

/-- The components that a path leads to, whether there is an entry or not. -/
def locate (store : FileStore) (path : String) :
    Except Fault (List (List Char)) :=
  let text := path.toList
  if text.contains '\x00' then .error .pathUnusable
  else if text.isEmpty then .error (.fileMissing path)
  else if pathLimit < (Text.Utf8.encode text).length then
    .error (.fileNameTooLong path)
  else
    store.follow path
      (if Path.isAbsolute text then [] else Path.components store.working)
      (Text.splitOn '/' text)

def entry (store : FileStore) (path : String) : Except Fault Entry := do
  match store.entryAt? (← store.locate path) with
  | some entry => return entry
  | none => throw (.fileMissing path)

def isFile (store : FileStore) (path : String) : Bool :=
  match store.entry path with
  | .ok (.file _ _) => true
  | _ => false

def isFolder (store : FileStore) (path : String) : Bool :=
  match store.entry path with
  | .ok (.folder _) => true
  | _ => false

def names (store : FileStore) (path : String) : List (List Char) :=
  match store.locate path with
  | .error _ => []
  | .ok above =>
      store.entries.filterMap fun (parts, _) =>
        match parts.getLast? with
        | some name => if parts.dropLast = above then some name else none
        | none => none

def read (store : FileStore) (path : String) : Except Fault (List UInt8) := do
  match ← store.entry path with
  | .file bytes _ => return bytes
  | .folder _ => throw (.fileIsDirectory path)

def readText (store : FileStore) (path : String) :
    Except Fault (List Char) := do
  match Text.Utf8.decode? (← store.read path) with
  | some text => return text
  | none => throw .fileNotUtf8

def folderOf (path : String) : String :=
  let shortened := path.toList.reverse.dropWhile fun c => c = '/'
  String.ofList (shortened.dropWhile fun c => c != '/').reverse

/-- A path that ends with a slash names a folder, once the folder around it is
there. -/
def namesFolder (store : FileStore) (path : String) : Bool :=
  let above := folderOf path
  path.toList.getLast? == some '/' && (above.isEmpty || store.isFolder above)

def write (store : FileStore) (path : String) (bytes : List UInt8)
    (stamp : Stamp) : Except Fault FileStore := do
  if store.namesFolder path then throw (.fileIsDirectory path)
  let parts ← store.locate path
  match store.entryAt? parts with
  | some (.folder _) => throw (.fileIsDirectory path)
  | _ => return store.put parts (.file bytes stamp)

def writeDeep (store : FileStore) (path : String) (bytes : List UInt8)
    (stamp : Stamp) : FileStore :=
  let parts := Path.components (Path.absolute store.working path.toList)
  (store.makeFolders [] parts.dropLast).put parts (.file bytes stamp)

def makeFolder (store : FileStore) (path : String) : FileStore :=
  store.makeFolders []
    (Path.components (Path.absolute store.working path.toList))

def setStamp (store : FileStore) (path : String) (stamp : Stamp) :
    Except Fault FileStore := do
  let parts ← store.locate path
  match store.entryAt? parts with
  | some (.file bytes _) => return store.put parts (.file bytes stamp)
  | some (.folder _) => return store.put parts (.folder stamp)
  | none => throw (.fileMissing path)

def remove (store : FileStore) (path : String) : Except Fault FileStore := do
  let parts ← store.locate path
  match store.entryAt? parts with
  | some (.file _ _) =>
      let left := store.touch parts.dropLast
      return { left with
        entries := left.entries.filter fun other => other.1 ≠ parts }
  | some (.folder _) => throw (.fileIsDirectory path)
  | none => throw (.fileMissing path)

end FileStore

end ContractAtlas
