/-
Reading configuration files: headers, assignments and values over several
lines.
-/

import ContractAtlas.Toml.Assignment
import ContractAtlas.Toml.Line

namespace ContractAtlas.Toml

open Text

structure Document where
  root : Value := Value.empty
  level : List Step := []
  /-- Tables that only came about as parts of longer headers. -/
  implicit : List (List Char) := []
  pending : Option Pending := none

def isBareName (name : List Char) : Bool :=
  !name.isEmpty &&
    name.all fun c =>
      ('A' ≤ c && c ≤ 'Z') || ('a' ≤ c && c ≤ 'z') || isPlainDigit c ||
        c = '_' || c = '-'

def isClosedName (name : List Char) : Bool :=
  1 < name.length && name.head? == name.getLast?

/-- Joins the parts of a quoted name that holds dots: the name, and the parts
behind it. -/
def closeName (name : List Char) :
    List (List Char) → Except Flaw (List Char × List (List Char))
  | [] =>
      if isClosedName (trim name) then .ok (dropEnds 1 (trim name), [])
      else .error .malformed
  | part :: rest =>
      if isClosedName (trim name) then
        .ok (dropEnds 1 (trim name), part :: rest)
      else closeName (name ++ '.' :: part) rest

def headerNames : Nat → List (List Char) → Except Flaw (List (List Char))
  | 0, _ => .ok []
  | _, [] => .ok []
  | bound + 1, part :: rest =>
      match trim part with
      | [] => .error .malformed
      | first :: others =>
          if first = '"' || first = '\'' then do
            let (name, behind) ← closeName (first :: others) rest
            return name :: (← headerNames bound behind)
          else if isBareName (first :: others) then do
            return (first :: others) :: (← headerNames bound rest)
          else .error .malformed

def readHeader (closing line : List Char) :
    Except Flaw (List (List Char)) :=
  let cuts := cutsIn closing line
  let parts := splitAtMost closing cuts line
  if parts.length ≤ cuts || !(trim (parts.getLast?.getD [])).isEmpty then
    .error .malformed
  else
    let names := splitOn '.' (List.intercalate closing parts.dropLast)
    headerNames names.length names

structure Entered where
  level : Value
  steps : List Step
  implicit : List (List Char)

def freshLevel (isItem : Bool) : Value :=
  if isItem then .list [Value.empty] else Value.empty

/-- Entries of a list header go to the last item. -/
def lastStep (isItem : Bool) (value : Value) : Except Flaw (List Step) :=
  if isItem then
    match value with
    | .table _ => .ok []
    | .list [] => .error .truncated
    | .list _ => .ok [.last]
    | .text [] => .error .truncated
    | .text _ => .ok [.last]
    | _ => .error .notTable
  else .ok []

/-- What the last name of a header makes of the value it names. -/
def openAgain (isItem : Bool) (name : List Char) (implicit : List (List Char))
    (value : Value) : Except Flaw (Value × List (List Char)) :=
  if implicit.contains name then
    if isItem then .error .malformed else .ok (value, implicit.erase name)
  else if isItem then
    match value with
    | .list items => .ok (.list (items ++ [Value.empty]), implicit)
    | _ => .error .notList
  else .error .malformed

def openEntry (isItem isLast : Bool) (name : List Char)
    (implicit : List (List Char)) (entries : List (List Char × Value)) :
    Except Flaw (Value × List (List Char)) :=
  match entries.lookup name with
  | some value =>
      if isLast then openAgain isItem name implicit value
      else .ok (value, implicit)
  | none =>
      .ok
        (freshLevel (isLast && isItem),
          if isLast then implicit else implicit ++ [name])

mutual

def enter (isItem : Bool) (implicit : List (List Char)) :
    List (List Char) → Value → Except Flaw Entered
  | [], level => .ok { level := level, steps := [], implicit := implicit }
  | name :: rest, level =>
      if name.isEmpty then .error .malformed
      else
        match level with
        | .table entries => do
            let (value, marked) ←
              openEntry isItem rest.isEmpty name implicit entries
            let inner ← lastStep isItem value
            let below ← enterAt isItem marked rest value inner
            return {
              level := .table (Value.putEntry name below.level entries)
              steps := .entry name :: below.steps
              implicit := below.implicit }
        | .list items =>
            match items.getLast? with
            | none => .error .truncated
            | some (.table entries) => do
                let value :=
                  (entries.lookup name).getD (freshLevel (rest.isEmpty && isItem))
                let inner ← lastStep isItem value
                let below ← enterAt isItem implicit rest value inner
                let changed := Value.putEntry name below.level entries
                return {
                  level :=
                    .list (Value.changeLast (fun _ => .table changed) items)
                  steps := .last :: .entry name :: below.steps
                  implicit := below.implicit }
            | some _ => .error .notTable
        | .text [] => .error .truncated
        | _ => .error .notTable

/-- Goes on with the last item of a value, or with the value itself. -/
def enterAt (isItem : Bool) (implicit : List (List Char))
    (names : List (List Char)) (value : Value) (inner : List Step) :
    Except Flaw Entered :=
  match inner with
  | [] => enter isItem implicit names value
  | step :: _ =>
      match value.follow? step with
      | none => .error .truncated
      | some item => do
          let below ← enter isItem implicit names item
          return {
            level := value.changeAt (fun _ => below.level) [step]
            steps := step :: below.steps
            implicit := below.implicit }

end

namespace Document

def header (document : Document) (isItem : Bool) (names : List (List Char)) :
    Except Flaw Document := do
  let entered ← enter isItem document.implicit names document.root
  return {
    document with
    root := entered.level
    level := entered.steps
    implicit := entered.implicit }

def headerLine (document : Document) (line : List Char) :
    Except Flaw Document :=
  match line with
  | '[' :: '[' :: rest => do
      document.header true (← readHeader [']', ']'] rest)
  | [_] => .error .malformed
  | _ => do document.header false (← readHeader [']'] (line.drop 1))

def current (document : Document) : Value :=
  (document.root.at? document.level).getD Value.empty

def setCurrent (document : Document) (value : Value) : Document :=
  { document with
    root := document.root.changeAt (fun _ => value) document.level }

def assignmentLine (document : Document) (line : List Char) :
    Except Flaw Document := do
  let (level, pending) ← readLine readValue line document.current
  return { document.setCurrent level with pending := pending }

def inlineLine (document : Document) (line : List Char) :
    Except Flaw Document := do
  if line.getLast? != some '\x7d' then throw .malformed
  let entries ← splitInline line
  return document.setCurrent (← readEntries readValue entries document.current)

def freshLine (document : Document) (line : List Char) :
    Except Flaw Document :=
  match trim line with
  | [] => .ok document
  | first :: rest =>
      let text := first :: rest
      if first = '[' then document.headerLine text
      else if first = '\x7b' then document.inlineLine text
      else if text.contains '=' then document.assignmentLine text
      else .ok document

def closes (text line : List Char) : Except Flaw Bool :=
  match text with
  | '[' :: _ =>
      match line.getLast? with
      | none => .error .truncated
      | some c => .ok (c = ']')
  | first :: _ =>
      .ok (2 < line.length && line.reverse.take 3 == [first, first, first])
  | [] => .error .truncated

def setPending (document : Document) (key : List Char) (value : Value) :
    Except Flaw Document :=
  match document.current with
  | .table entries =>
      .ok
        { document.setCurrent (.table (Value.putEntry key value entries)) with
          pending := none }
  | _ => .error .notTable

def pendingLine (document : Document) (pending : Pending) (line : List Char) :
    Except Flaw Document := do
  let part :=
    if pending.continued || !pending.text.contains '\n' then trim line else line
  if part.isEmpty && pending.continued then return document
  else
    let text := pending.text ++ part
    if ← closes text part then
      let (value, _) ← readValue true text
      document.setPending pending.key value
    else
      return { document with pending := some (Pending.start pending.key text) }

def line (document : Document) (text : List Char) : Except Flaw Document :=
  match document.pending with
  | some pending => document.pendingLine pending text
  | none => document.freshLine text

end Document

def read (text : List Char) : Except Flaw Value := do
  let document ← (← lines text).foldlM Document.line {}
  return document.root

end ContractAtlas.Toml
