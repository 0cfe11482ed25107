/-
Documents in which every list and object of a place is written once.

The first time it gets an anchor, and later it is only referred to.  Anchors
are numbered in the order in which places are met again.
-/

import ContractAtlas.Json.Document

namespace ContractAtlas.Yaml

/-- A part of a value that was read: the place of the value, and the positions
that lead down to the part, the innermost first. -/
structure Spot where
  origin : Origin
  path : List Nat := []
deriving DecidableEq

def Spot.item (spot : Spot) (position : Nat) : Spot :=
  { spot with path := position :: spot.path }

/-- The spots that have been met, and those that have been met again, each in
order. -/
structure Meetings where
  met : List Spot := []
  again : List Spot := []

namespace Meetings

def isNew (meetings : Meetings) (spot : Spot) : Bool :=
  !meetings.met.contains spot

def note (meetings : Meetings) (spot : Spot) : Meetings :=
  if meetings.isNew spot then { meetings with met := spot :: meetings.met }
  else if meetings.again.contains spot then meetings
  else { meetings with again := meetings.again ++ [spot] }

mutual

/-- Meets the lists and objects in a value; nothing below one that was met
before is looked at. -/
def ofValue (spot : Spot) (meetings : Meetings) : Json → Meetings
  | .arr items =>
      if meetings.isNew spot then ofItems spot 0 (meetings.note spot) items
      else meetings.note spot
  | .obj entries =>
      if meetings.isNew spot then ofEntries spot 0 (meetings.note spot) entries
      else meetings.note spot
  | _ => meetings

def ofItems (spot : Spot) (position : Nat) (meetings : Meetings) :
    List Json → Meetings
  | [] => meetings
  | item :: rest =>
      ofItems spot (position + 1) (ofValue (spot.item position) meetings item)
        rest

def ofEntries (spot : Spot) (position : Nat) (meetings : Meetings) :
    List (String × Json) → Meetings
  | [] => meetings
  | (_, value) :: rest =>
      ofEntries spot (position + 1)
        (ofValue (spot.item position) meetings value) rest

end

def ofDatum (meetings : Meetings) (datum : Datum) : Meetings :=
  match datum.origin with
  | some origin => ofValue { origin := origin } meetings datum.value
  | none => meetings

mutual

def ofDocument (meetings : Meetings) : Document → Meetings
  | .value datum => meetings.ofDatum datum
  | .list items => ofDocuments meetings items
  | .record entries => ofRecord meetings entries

def ofDocuments (meetings : Meetings) : List Document → Meetings
  | [] => meetings
  | item :: rest => ofDocuments (ofDocument meetings item) rest

def ofRecord (meetings : Meetings) : List (Json × Document) → Meetings
  | [] => meetings
  | (_, entry) :: rest => ofRecord (ofDocument meetings entry) rest

end

end Meetings

/-- The spots of a document that are met more than once, in the order of their
second meeting. -/
def sharedSpots (document : Document) : List Spot :=
  (Meetings.ofDocument {} document).again

inductive Anchored where
  | reference (number : Nat)
  | scalar (value : Json)
  | list (anchor : Option Nat) (items : List Anchored)
  | record (anchor : Option Nat) (entries : List (Json × Anchored))
deriving Inhabited

namespace Anchored

def number? (shared : List Spot) (spot : Option Spot) : Option Nat :=
  match spot with
  | some spot =>
      if shared.contains spot then some (shared.idxOf spot + 1) else none
  | none => none

abbrev Written := List Nat

def itemOf (spot : Option Spot) (position : Nat) : Option Spot :=
  spot.map fun spot => spot.item position

def written (done : Written) : Option Nat → Written
  | some number => number :: done
  | none => done

def isWritten (done : Written) : Option Nat → Bool
  | some number => done.contains number
  | none => false

mutual

def ofValue (shared : List Spot) (spot : Option Spot) (done : Written) :
    Json → Anchored × Written
  | .arr items =>
      let number := number? shared spot
      if isWritten done number then (reference (number.getD 0), done)
      else
        let (parts, next) := ofItems shared spot 0 (written done number) items
        (list number parts, next)
  | .obj entries =>
      let number := number? shared spot
      if isWritten done number then (reference (number.getD 0), done)
      else
        let (parts, next) :=
          ofEntries shared spot 0 (written done number) entries
        (record number parts, next)
  | value => (scalar value, done)

def ofItems (shared : List Spot) (spot : Option Spot) (position : Nat)
    (done : Written) : List Json → List Anchored × Written
  | [] => ([], done)
  | item :: rest =>
      let (first, next) := ofValue shared (itemOf spot position) done item
      let (others, last) := ofItems shared spot (position + 1) next rest
      (first :: others, last)

def ofEntries (shared : List Spot) (spot : Option Spot) (position : Nat)
    (done : Written) : List (String × Json) → List (Json × Anchored) × Written
  | [] => ([], done)
  | (key, value) :: rest =>
      let (first, next) := ofValue shared (itemOf spot position) done value
      let (others, last) := ofEntries shared spot (position + 1) next rest
      ((.str key, first) :: others, last)

end

def spotOf? (datum : Datum) : Option Spot :=
  datum.origin.map fun origin => { origin := origin }

mutual

def ofDocument (shared : List Spot) (done : Written) :
    Document → Anchored × Written
  | .value datum => ofValue shared (spotOf? datum) done datum.value
  | .list items =>
      let (parts, next) := ofDocuments shared done items
      (list none parts, next)
  | .record entries =>
      let (parts, next) := ofRecord shared done entries
      (record none parts, next)

def ofDocuments (shared : List Spot) (done : Written) :
    List Document → List Anchored × Written
  | [] => ([], done)
  | item :: rest =>
      let (first, next) := ofDocument shared done item
      let (others, last) := ofDocuments shared next rest
      (first :: others, last)

def ofRecord (shared : List Spot) (done : Written) :
    List (Json × Document) → List (Json × Anchored) × Written
  | [] => ([], done)
  | (key, entry) :: rest =>
      let (first, next) := ofDocument shared done entry
      let (others, last) := ofRecord shared next rest
      ((key, first) :: others, last)

end

end Anchored

def anchored (document : Document) : Anchored :=
  (Anchored.ofDocument (sharedSpots document) [] document).1

end ContractAtlas.Yaml
