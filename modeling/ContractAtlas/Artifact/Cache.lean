/-
Compilations that have been read, by the absolute paths of their artifacts.

An entry holds as long as the file has the time of modification that it had
when it was read.
-/

import ContractAtlas.Artifact.Project
import ContractAtlas.Source.Reading

namespace ContractAtlas

structure CacheEntry where
  stamp : Stamp
  compilation : Compilation

structure Cache where
  entries : List (List Char × CacheEntry) := []

namespace Cache

def empty : Cache := {}

def find? (cache : Cache) (key : List Char) : Option CacheEntry :=
  cache.entries.lookup key

def valid? (cache : Cache) (key : List Char) (stamp : Stamp) :
    Option Compilation :=
  match cache.find? key with
  | some entry => if entry.stamp = stamp then some entry.compilation else none
  | none => none

def forgetKey (cache : Cache) (key : List Char) : Cache :=
  { entries := cache.entries.filter fun entry => entry.1 ≠ key }

def store (cache : Cache) (key : List Char) (stamp : Stamp)
    (compilation : Compilation) : Cache :=
  { entries :=
      (key, { stamp := stamp, compilation := compilation }) ::
        (cache.forgetKey key).entries }

def forget (cache : Cache) (working : List Char) (path : String) : Cache :=
  cache.forgetKey (Path.absolute working path.toList)

def contains (cache : Cache) (working : List Char) (path : String) : Bool :=
  (cache.find? (Path.absolute working path.toList)).isSome

def size (cache : Cache) : Nat :=
  cache.entries.length

def stampOf (files : FileStore) (key : List Char) (path : String) :
    Except Fault Stamp :=
  match files.entry (String.ofList key) with
  | .ok entry => .ok entry.stamp
  | .error fault =>
      if fault.isFile then .error (.artifactFileMissing path)
      else .error fault

structure Found where
  compilation : Compilation
  isHit : Bool

/-- The compilation of an artifact, read again if the file has changed.  A
fault leaves the cache as it was. -/
def get (cache : Cache) (files : FileStore) (path : String) :
    Journal (Cache × Found) := do
  let key := Path.absolute files.working path.toList
  let stamp ← Journal.ofExcept (stampOf files key path)
  match cache.valid? key stamp with
  | some compilation =>
      Journal.log (.cacheHit (String.ofList key))
      return (cache, { compilation := compilation, isHit := true })
  | none =>
      let document ← Journal.ofExcept (Project.load files (String.ofList key))
      let compilation := { ← Reading.read document with source := key }
      Journal.log
        (.cacheStored (String.ofList key) compilation.units.length)
      return (cache.store key stamp compilation,
        { compilation := compilation, isHit := false })

end Cache

end ContractAtlas
