/-
The source unit that a file path stands for.

A unit with the very path is taken first, then one whose path is the file's
path seen from the project root, then one of which either path is a trailing
part of the other.
-/

import ContractAtlas.Artifact.Path
import ContractAtlas.Source.Compilation

namespace ContractAtlas.Selection

def unitPath (unit : SourceUnit) : Except Fault (List Char) :=
  match unit.root.textOr "absolutePath" "" with
  | .str path => .ok (Path.normalize path.toList)
  | _ => .error .notPath

def firstUnit (test : List Char → Bool) :
    List SourceUnit → Except Fault (Option SourceUnit)
  | [] => .ok none
  | unit :: rest =>
      match unitPath unit with
      | .error fault => .error fault
      | .ok path => if test path then .ok (some unit) else firstUnit test rest

/-- The first unit that passes one of several tests, earlier tests first. -/
def firstOfTests (units : List SourceUnit) :
    List (List Char → Bool) → Except Fault (Option SourceUnit)
  | [] => .ok none
  | test :: rest =>
      match firstUnit test units with
      | .error fault => .error fault
      | .ok (some unit) => .ok (some unit)
      | .ok none => firstOfTests units rest

/-- The unit's path is a trailing part of the file's path, or the other way
round. -/
def isTrailing (file path : List Char) : Bool :=
  let ending := Path.dropSlashes (Path.normalize file)
  Path.endsBelow path ending || Path.endsBelow ending path

def tests (working file : List Char) (root : Option (List Char)) :
    List (List Char → Bool) :=
  let inRoot :=
    match root with
    | some directory =>
        [fun path =>
          path == Path.normalize
            (Path.relative working (Path.absolute working file) directory)]
    | none => []
  [fun path => path == Path.normalize file] ++ inRoot ++ [isTrailing file]

def select (working : List Char) (units : List SourceUnit) (file : String)
    (root : Option String) : Except Fault SourceUnit :=
  match firstOfTests units (tests working file.toList (root.map String.toList)) with
  | .error fault => .error fault
  | .ok (some unit) => .ok unit
  | .ok none => .error (.noMatchingUnit file)

end ContractAtlas.Selection
