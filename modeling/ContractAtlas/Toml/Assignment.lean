/-
Assignments of configuration files, and the values in them.

A value is a quoted text, a truth value, a date, a time, a number, an array
or an inline table.  Arrays and inline tables hold values again, each shorter
than what holds it, so the length of the text bounds the nesting.
-/

import ContractAtlas.Toml.Scalar

namespace ContractAtlas.Toml

open Text

/-- Joins single-quoted pieces that are still open with the double-quoted
pieces after them. -/
def closeSingles (singles : List (List Char)) :
    List (List Char) → List (List Char) × List (List Char)
  | [] => (singles, [])
  | piece :: rest =>
      if singles.length % 2 = 0 then
        let last := singles.getLast?.getD [] ++ '"' :: piece
        closeSingles (singles.dropLast ++ splitOn '\'' last) rest
      else (singles, piece :: rest)

/-- The pieces of a text between quotes of both kinds, by turns outside and
inside of quotes. -/
def splitOnQuotes (text : List Char) : List (List Char) :=
  let pieces := splitOn '"' text
  let (closed, rest) :=
    match pieces with
    | first :: second :: others =>
        if first.contains '\'' then
          closeSingles (splitOn '\'' first) (second :: others)
        else ([], pieces)
    | _ => ([], pieces)
  match rest with
  | [] => closed
  | first :: others => closed ++ splitOn '\'' first ++ others

/-- How many cuts at a separator go past the quoted pieces before the first
separator outside of quotes. -/
def cutsPast (separator : List Char) (quoted : Bool) :
    List (List Char) → Nat
  | [] => 1
  | piece :: rest =>
      if !quoted && occurs separator piece then 1
      else countText separator piece + cutsPast separator (!quoted) rest

def cutsIn (separator text : List Char) : Nat :=
  cutsPast separator false (splitOnQuotes text)

def startsValue (text : List Char) : Except Flaw Bool :=
  match text with
  | [] => .ok true
  | first :: _ =>
      if [' ', '\t', '\'', '"', '[', '\x7b'].contains first ||
          trim text == "true".toList || trim text == "false".toList ||
          (readReal? text).isSome then .ok true
      else do return (← isDate text) || startsWithTime text

/-- Moves the cut between key and value to the right until a value starts
there; the flag says whether every candidate was a strict number. -/
def findCut (line : List Char) (strict : Bool) (cuts : Nat)
    (parts : List (List Char)) :
    Nat → Except Flaw (List (List Char) × Bool)
  | 0 => .error .malformed
  | fuel + 1 => do
      let value := parts.getLast?.getD []
      if ← startsValue value then return (parts, strict)
      else
        let next := splitAtMost ['='] (cuts + 1) line
        let candidate := next.getLast?.getD []
        if candidate = value then throw .malformed
        else
          findCut line (strict && isStrictNumber candidate) (cuts + 1) next fuel

def dropNumberBars (parts : List (List Char)) : List (List Char) :=
  match parts.getLast? with
  | some value =>
      if value.head?.any isPlainDigit then
        parts.dropLast ++ [value.filter fun c => c != '_']
      else parts
  | none => parts

def splitAssignment (line : List Char) :
    Except Flaw (List Char × List Char × Bool) := do
  let cuts := cutsIn ['='] line
  let parts := splitAtMost ['='] cuts line
  let strict := isStrictNumber (parts.getLast?.getD [])
  let (found, strict) ←
    findCut line strict cuts (dropNumberBars parts) (2 * line.length + 2)
  let key := trim (List.intercalate ['='] found.dropLast)
  return (key, trim (found.getLast?.getD []), strict)

def keyParts (quoted : Bool) : List (List Char) → List (List Char)
  | [] => []
  | piece :: rest =>
      (if quoted then [piece] else (splitOn '.' piece).map trim) ++
        keyParts (!quoted) rest

/-- The tables on the way to a key, and the key itself.  Only in a key with
quotes do blanks around dots not count. -/
def readKey (key : List Char) :
    Except Flaw (List (List Char) × List Char) :=
  if key.contains '.' then
    let parts :=
      if key.contains '"' || key.contains '\'' then
        keyParts false (splitOnQuotes key)
      else splitOn '.' key
    match (parts.reverse.dropWhile List.isEmpty) with
    | [] => .error .truncated
    | last :: before =>
        .ok ((before.reverse.filter fun part => !part.isEmpty), trim last)
  else
    match key with
    | [] => .error .truncated
    | first :: _ =>
        if key.getLast? == some first && (first = '"' || first = '\'') then do
          return ([], ← unescape (dropEnds 1 key))
        else .ok ([], key)

def startsTextArray (array : List Char) : Bool :=
  match trim (dropEnds 1 array) with
  | first :: _ => first = '"' || first = '\''
  | [] => false

def lastOpenItem : List (List Char) → Except Flaw (List Char)
  | [] => .ok []
  | [item] => .ok item
  | [] :: _ :: _ => .error .truncated
  | (c :: item) :: before :: rest =>
      if c = '"' || c = '\'' then .ok (c :: item)
      else lastOpenItem ((before ++ ',' :: c :: item) :: rest)
termination_by items => items.length

def openPart (value : List Char) : Except Flaw (List Char) :=
  if value.head? == some '[' && value.getLast? != some ']' &&
      startsTextArray value then
    lastOpenItem (splitOn ',' (trim (value.drop 1))).reverse
  else .ok value

def isOpenText : List Char → Bool
  | first :: second :: third :: rest =>
      let text := first :: second :: third :: rest
      (first = '"' || first = '\'') && second = first && third = first &&
        !(5 < text.length &&
          text.reverse.take 3 == [first, first, first])
  | _ => false

def goesOn (value : List Char) : Except Flaw Bool :=
  if value.length < 3 then .ok false
  else do
    let part ← openPart value
    match part with
    | [] => throw .truncated
    | [c] => if c = '"' || c = '\'' then throw .truncated else return false
    | [c, d] =>
        if (c = '"' || c = '\'') && c = d then throw .truncated
        else return false
    | text => return isOpenText text

structure Pending where
  key : List Char
  text : List Char
  /-- The last line ended in a backslash. -/
  continued : Bool

def Pending.start (key value : List Char) : Pending :=
  if endsEscaping value then
    { key := key, text := value.dropLast, continued := true }
  else { key := key, text := value ++ ['\n'], continued := false }

def enterTables : List (List Char) → Value → Except Flaw (Value × List Step)
  | [], level => .ok (level, [])
  | key :: rest, .table entries => do
      let value := (entries.lookup key).getD Value.empty
      let (changed, steps) ← enterTables rest value
      return (.table (Value.putEntry key changed entries), .entry key :: steps)
  | _ :: _, _ => .error .notTable

def isBounded (text : List Char) : Bool :=
  match text with
  | [] => true
  | first :: rest =>
      text.getLast? == some first && !endsEscaping rest.dropLast

def isOpenItem (item : List Char) : Bool :=
  let text := trim item
  !isBounded text ||
    match text with
    | first :: second :: third :: _ =>
        first = second && second = third &&
          (text.reverse.drop 1).head? != some first &&
          (text.reverse.drop 2).head? != some first
    | _ => false

def joinTextItems : List (List Char) → Except Flaw (List (List Char))
  | [] => .ok []
  | [item] => .ok [item]
  | [item, next] =>
      if isOpenItem item then
        if isOpenItem (item ++ ',' :: next) then .error .truncated
        else .ok [item ++ ',' :: next]
      else .ok [item, next]
  | item :: next :: third :: rest =>
      if isOpenItem item then
        joinTextItems ((item ++ ',' :: next) :: third :: rest)
      else do return item :: (← joinTextItems (next :: third :: rest))
termination_by items => items.length

def splitNested (depth : Int) : List Char → List (List Char)
  | [] => [[]]
  | c :: rest =>
      if c = '[' then pushFirst c (splitNested (depth + 1) rest)
      else if c = ']' then pushFirst c (splitNested (depth - 1) rest)
      else if c = ',' && depth = 0 then [] :: splitNested depth rest
      else pushFirst c (splitNested depth rest)

structure TableScan where
  /-- The characters of the table that is open, last one first. -/
  current : List Char
  depth : Int
  quoted : Bool := false

/-- The inline tables of an array; what stands between them is skipped, and
so is the character right behind each of them. -/
def inlineTables (state : Option TableScan) :
    List Char → List (List Char)
  | [] => []
  | c :: rest =>
      match state with
      | none =>
          if c = '\x7b' then
            inlineTables (some { current := [c], depth := 1 }) rest
          else inlineTables none rest
      | some scan =>
          let escaped := scan.quoted && endsEscaping scan.current.reverse
          let quoted :=
            if (c = '"' || c = '\'') && !escaped then !scan.quoted
            else scan.quoted
          let depth := if !quoted && c = '\x7b' then scan.depth + 1 else scan.depth
          if quoted || c != '\x7d' then
            inlineTables
              (some { current := c :: scan.current, depth := depth, quoted := quoted })
              rest
          else if 1 < depth then
            inlineTables
              (some
                { current := c :: scan.current, depth := depth - 1, quoted := quoted })
              rest
          else
            let table := (c :: scan.current).reverse
            match rest with
            | [] => [table]
            | _ :: others => table :: inlineTables none others

def arrayItems (array : List Char) : Except Flaw (List (List Char)) :=
  let inside := dropEnds 1 array
  let beforeBracket := (splitOn '[' inside).head?.getD []
  if !inside.contains '[' || !(trim beforeBracket).isEmpty then
    let items :=
      if (trim inside).head? == some '\x7b' then
        inlineTables none inside
      else splitOn ',' inside
    if startsTextArray array then joinTextItems items else .ok items
  else .ok (splitNested 0 inside)

def isCompleteValue (value : List Char) : Except Flaw Bool :=
  match value with
  | [] => .error .truncated
  | first :: _ =>
      let last := value.getLast?
      .ok
        ((last == some first && (first = '"' || first = '\'')) || first = '-' ||
          isPlainDigit first || value == "true".toList ||
          value == "false".toList || (first = '[' && last == some ']') ||
          (first = '\x7b' && last == some '\x7d'))

def inlineEntries : List (List Char) → Except Flaw (List (List Char))
  | [] => .ok []
  | entry :: rest =>
      match splitAtMost ['='] 1 entry with
      | [_, value] => do
          if ← isCompleteValue (trim value) then
            return entry :: (← inlineEntries rest)
          else
            match rest with
            | [] => throw .malformed
            | next :: others => inlineEntries ((entry ++ ',' :: next) :: others)
      | _ => .error .malformed
termination_by entries => entries.length

def splitInline (table : List Char) : Except Flaw (List (List Char)) :=
  match splitOn ',' (dropEnds 1 table) with
  | [only] => if (trim only).isEmpty then .ok [] else inlineEntries [only]
  | entries => inlineEntries entries

def readUnsigned (negative : Bool) (text : List Char) :
    Except Flaw (Value × Value.Shape) :=
  let word := String.ofList (text.map Char.toLower)
  let hasExponent :=
    !text.contains 'x' && (text.contains 'e' || text.contains 'E')
  let isPointed := text.contains '.' || hasExponent
  let endsInPoint := (splitAtMost ['.'] 1 text).drop 1 == [[]]
  if isPointed && (endsInPoint || !text.head?.any isPlainDigit) then
    .error .malformed
  else if isPointed || word == "inf" || word == "nan" then
    match readReal? (if negative then '-' :: text else text) with
    | some value => .ok (.real value, .real)
    | none => .error .malformed
  else
    match readInteger text with
    | some value => .ok (.integer (if negative then -value else value), .integer)
    | none => .error .malformed

def readNumber (text : List Char) : Except Flaw (Value × Value.Shape) :=
  match text with
  | '-' :: rest => readUnsigned true (rest.filter fun c => c != '_')
  | '+' :: rest => readUnsigned false (rest.filter fun c => c != '_')
  | rest => readUnsigned false (rest.filter fun c => c != '_')

def readBare (strict : Bool) (text : List Char) :
    Except Flaw (Value × Value.Shape) :=
  let word := String.ofList (text.map Char.toLower)
  if text == "true".toList then .ok (.flag true, .flag)
  else if text == "false".toList then .ok (.flag false, .flag)
  else if word == "true" || word == "false" then .error .malformed
  else if startsWithTime text then
    if isTimeValid text then .ok (.moment, .time) else .error .malformed
  else do
    if ← isDate text then return (.moment, .date)
    else if strict then readNumber text
    else throw .malformed

def addItem (items : List Value × Option Value.Shape)
    (item : Value × Value.Shape) :
    Except Flaw (List Value × Option Value.Shape) :=
  match items.2 with
  | some shape =>
      if shape = item.2 then .ok (items.1 ++ [item.1], some shape)
      else .error .malformed
  | none => .ok ([item.1], some item.2)

def assign (steps : List Step) (key : List Char) (value : Value)
    (level : Value) : Except Flaw Value :=
  match level.at? steps with
  | some (.table entries) =>
      match entries.lookup key with
      | some _ => .error .malformed
      | none =>
          .ok
            (level.changeAt (fun _ => .table (Value.putEntry key value entries))
              steps)
  | _ => .error .malformed

def isFree (steps : List Step) (key : List Char) (level : Value) : Bool :=
  match level.at? steps with
  | some (.table entries) => (entries.lookup key).isNone
  | _ => false

def readItems
    (read : Bool → List Char → Except Flaw (Value × Value.Shape)) :
    List (List Char) → List Value × Option Value.Shape →
    Except Flaw (List Value × Option Value.Shape)
  | [], items => .ok items
  | text :: rest, items => do
      if (trim text).isEmpty then readItems read rest items
      else
        let item ← read true (trim text)
        readItems read rest (← addItem items item)

/-- Reads one assignment: the level after it, or a value that goes on. -/
def readLine (read : Bool → List Char → Except Flaw (Value × Value.Shape))
    (line : List Char) (level : Value) :
    Except Flaw (Value × Option Pending) := do
  let (name, text, strict) ← splitAssignment line
  let (tables, key) ← readKey name
  let (entered, steps) ← enterTables tables level
  if ← goesOn text then
    if !isFree steps key entered then throw .malformed
    else if key.isEmpty then throw .unnamed
    else return (entered, some (Pending.start key text))
  else
    let (value, _) ← read strict text
    return (← assign steps key value entered, none)

def readEntries (read : Bool → List Char → Except Flaw (Value × Value.Shape)) :
    List (List Char) → Value → Except Flaw Value
  | [], level => .ok level
  | line :: rest, level => do
      match ← readLine read line level with
      | (changed, none) => readEntries read rest changed
      | (changed, some _) => return changed

def readWithin : Nat → Bool → List Char → Except Flaw (Value × Value.Shape)
  | 0, _, _ => .error .malformed
  | bound + 1, strict, text =>
      match text with
      | [] => .error .malformed
      | first :: inside =>
          if first = '"' || first = '\'' then do
            return (.text (← readQuoted first inside), .text)
          else if first = '[' then do
            let items ← arrayItems text
            let (values, _) ← readItems (readWithin bound) items ([], none)
            return (.list values, .list)
          else if first = '\x7b' then do
            let entries ← splitInline text
            let level ← readEntries (readWithin bound) entries Value.empty
            return (level, .table)
          else readBare strict text

def readValue (strict : Bool) (text : List Char) :
    Except Flaw (Value × Value.Shape) :=
  readWithin (text.length + 1) strict text

end ContractAtlas.Toml
