/-
Events of a run, as they are logged.
-/

import ContractAtlas.Json.Basic

namespace ContractAtlas

inductive Level where
  | debug
  | info
  | warning
  | error
deriving DecidableEq

def Level.name : Level → String
  | debug => "debug"
  | info => "info"
  | warning => "warning"
  | error => "error"

inductive Event where
  | entrySkipped (path : String)
  | treesRead (units nodes : Nat)
  | cacheHit (path : String)
  | cacheStored (path : String) (units : Nat)
  | configRejected (path : String)
  | buildInfoChosen (path : String)
  | largeArray (member : Json) (slots : Nat)
  | layoutComputed (contract : Json) (members slots constants : Nat)
  | typeUnknown (contract : Json) (type : String) (member : Json)
  | layoutFailed (contract : Json) (error : String)
  | referenceUnresolved (name src : Json)
  | contractFailed (contract : Json)
  | runStarted (total : Nat) (workers : Int)
  | fileStarted (path : Json) (contracts : Nat)
  | runFinished (succeeded skipped failed : Nat)
  | exported (format path : String)
  | runFailed (error : String)

namespace Event

def level : Event → Level
  | entrySkipped _ => .debug
  | treesRead _ _ => .debug
  | cacheHit _ => .debug
  | cacheStored _ _ => .debug
  | configRejected _ => .warning
  | buildInfoChosen _ => .info
  | largeArray _ _ => .warning
  | layoutComputed _ _ _ _ => .debug
  | typeUnknown _ _ _ => .warning
  | layoutFailed _ _ => .warning
  | referenceUnresolved _ _ => .debug
  | contractFailed _ => .error
  | runStarted _ _ => .info
  | fileStarted _ _ => .info
  | runFinished _ _ _ => .info
  | exported _ _ => .info
  | runFailed _ => .error

def title : Event → String
  | entrySkipped _ => "Source entry without AST skipped"
  | treesRead _ _ => "AST read"
  | cacheHit _ => "AST cache hit"
  | cacheStored _ _ => "AST cache stored"
  | configRejected _ => "Could not parse foundry config"
  | buildInfoChosen _ => "Using latest build-info"
  | largeArray _ _ => "Large fixed array expanded"
  | layoutComputed _ _ _ _ => "Storage layout computed"
  | typeUnknown _ _ _ => "Storage layout skipped"
  | layoutFailed _ _ => "Storage layout skipped"
  | referenceUnresolved _ _ => "Unresolved call reference"
  | contractFailed _ => "Contract analysis failed"
  | runStarted _ _ => "Analyzing contracts"
  | fileStarted _ _ => "Analyzing file"
  | runFinished _ _ _ => "Analysis finished"
  | exported _ _ => "Results exported"
  | runFailed _ => "Analysis failed"

def fields : Event → List (String × Json)
  | entrySkipped path => [("path", .str path)]
  | treesRead units nodes =>
      [("source_units", .ofNat units), ("nodes", .ofNat nodes)]
  | cacheHit path => [("path", .str path)]
  | cacheStored path units =>
      [("path", .str path), ("source_units", .ofNat units)]
  | configRejected path => [("path", .str path)]
  | buildInfoChosen path => [("path", .str path)]
  | largeArray member slots => [("member", member), ("slots", .ofNat slots)]
  | layoutComputed contract members slots constants =>
      [("contract", contract), ("members", .ofNat members),
        ("slots", .ofNat slots), ("constants", .ofNat constants)]
  | typeUnknown contract type member =>
      [("contract", contract), ("type", .str type), ("member", member)]
  | layoutFailed contract error =>
      [("contract", contract), ("error", .str error)]
  | referenceUnresolved name src => [("name", name), ("src", src)]
  | contractFailed contract => [("contract", contract)]
  | runStarted total workers =>
      [("total", .ofNat total), ("workers", .int workers)]
  | fileStarted path contracts =>
      [("path", path), ("contracts", .ofNat contracts)]
  | runFinished succeeded skipped failed =>
      [("succeeded", .ofNat succeeded), ("skipped", .ofNat skipped),
        ("failed", .ofNat failed)]
  | exported format path => [("format", .str format), ("path", .str path)]
  | runFailed error => [("error", .str error)]

/-- The event as a document: its title, its level and its own fields. -/
def document (event : Event) : Json :=
  .obj
    ([("event", .str event.title), ("level", .str event.level.name)] ++
      event.fields)

end Event

end ContractAtlas
