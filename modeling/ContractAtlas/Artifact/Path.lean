/-
Paths of files, as text with slashes.

Normalising drops empty components and dots and lets two dots cancel the
component before them.  One leading slash stays, exactly two stay as well,
and more count as one.
-/

import ContractAtlas.Text.Blank
import ContractAtlas.Text.Split

namespace ContractAtlas.Path

def here : List Char := ['.']

def up : List Char := ['.', '.']

/-- Leading slashes that normalising keeps. -/
def leadingSlashes : List Char → Nat
  | '/' :: '/' :: '/' :: _ => 1
  | '/' :: '/' :: _ => 2
  | '/' :: _ => 1
  | _ => 0

def isAbsolute (path : List Char) : Bool :=
  path.head? == some '/'

/-- Adds a component to those before it, which come last first. -/
def push (absolute : Bool) (before : List (List Char)) (part : List Char) :
    List (List Char) :=
  if part = [] ∨ part = here then before
  else if part = up then
    match before with
    | [] => if absolute then [] else [up]
    | last :: earlier => if last = up then up :: last :: earlier else earlier
  else part :: before

def components (path : List Char) : List (List Char) :=
  ((Text.splitOn '/' path).foldl (push (isAbsolute path)) []).reverse

def normalize (path : List Char) : List Char :=
  let text :=
    List.replicate (leadingSlashes path) '/' ++
      List.intercalate ['/'] (components path)
  if text.isEmpty then here else text

/-- A path below a directory; an absolute path stands for itself. -/
def join (directory path : List Char) : List Char :=
  if isAbsolute path then path
  else if directory.isEmpty || directory.getLast? == some '/' then
    directory ++ path
  else directory ++ '/' :: path

def absolute (working path : List Char) : List Char :=
  normalize (join working path)

def commonStart : List (List Char) → List (List Char) → Nat
  | first :: rest, second :: others =>
      if first = second then commonStart rest others + 1 else 0
  | _, _ => 0

def relative (working path directory : List Char) : List Char :=
  let start := components (absolute working directory)
  let goal := components (absolute working path)
  let shared := commonStart start goal
  let parts := List.replicate (start.length - shared) up ++ goal.drop shared
  if parts.isEmpty then here else List.intercalate ['/'] parts

def dropSlashes (path : List Char) : List Char :=
  path.dropWhile fun c => c = '/'

def endsBelow (path ending : List Char) : Bool :=
  (Text.dropEnding? ('/' :: ending) path).isSome

end ContractAtlas.Path
