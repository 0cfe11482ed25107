/-
Lines of a configuration file.

Comments are blanked out, an array over several lines becomes one line, and
the line feed at the start of a text over several lines is dropped.  On the
way, keys and quotes are checked.
-/

import ContractAtlas.Text.Alphanumeric
import ContractAtlas.Text.Blank
import ContractAtlas.Text.Split
import ContractAtlas.Toml.Value

namespace ContractAtlas.Toml

inductive KeyState where
  | outside
  | name
  | afterName
deriving DecidableEq

inductive Header where
  | none
  | group
  | list
deriving DecidableEq

structure Scan where
  chars : Array Char
  /-- The quote of the text that is open. -/
  quote : Option Char := none
  multiline : Bool := false
  header : Header := .none
  lineStart : Bool := true
  key : KeyState := .outside
  dotted : Bool := false
  depth : Int := 0

namespace Scan

/-- The character at a position; positions before the start count from the
end. -/
def charAt? (scan : Scan) (position : Int) : Option Char :=
  if 0 ≤ position then scan.chars[position.toNat]?
  else if 0 ≤ position + scan.chars.size then
    scan.chars[(position + scan.chars.size).toNat]?
  else none

def isQuote (c : Char) : Bool :=
  c = '"' || c = '\''

def afterTwo (scan : Scan) (quote : Char) (position : Nat) : Bool :=
  scan.charAt? ((position : Int) - 1) == some quote &&
    scan.charAt? ((position : Int) - 2) == some quote

def toggle (scan : Scan) (quote : Char) (triple : Bool) : Scan :=
  let isOpen := if triple then !scan.multiline else scan.quote.isNone
  { scan with
    multiline := if triple then !scan.multiline else scan.multiline
    quote := if isOpen then some quote else none }

def oddBackslashes (scan : Scan) (position : Int) : Nat → Bool
  | 0 => false
  | fuel + 1 =>
      if scan.charAt? position = some '\\' then
        !scan.oddBackslashes (position - 1) fuel
      else false

def isEscaped (scan : Scan) (position : Nat) : Bool :=
  let triple := scan.afterTwo '"' position
  let single := scan.charAt? ((position : Int) - 1) != some '"'
  if triple then
    scan.oddBackslashes ((position : Int) - 3) (2 * scan.chars.size + 1)
  else if single then
    scan.oddBackslashes ((position : Int) - 1) (2 * scan.chars.size + 1)
  else false

def atQuote (scan : Scan) (position : Nat) (c : Char) : Scan :=
  if c = '\'' && scan.quote != some '"' then
    scan.toggle c (scan.afterTwo c position)
  else if c = '"' && scan.quote != some '\'' then
    if scan.isEscaped position then scan
    else scan.toggle c (scan.afterTwo c position)
  else scan

def blankOut (chars : Array Char) (position : Nat) : Nat → Array Char
  | 0 => chars
  | fuel + 1 =>
      match chars[position]? with
      | none => chars
      | some c =>
          if c = '\n' then chars
          else blankOut (chars.setIfInBounds position ' ') (position + 1) fuel

def atComment (scan : Scan) (position : Nat) (c : Char) : Scan :=
  if c = '#' && scan.quote.isNone && scan.header = .none then
    { scan with chars := blankOut scan.chars position scan.chars.size }
  else scan

def atBracket (scan : Scan) (position : Nat) (c : Char) : Scan :=
  if scan.quote.isSome then scan
  else if c = '[' && scan.header = .none then
    if scan.lineStart then
      if scan.chars[position + 1]? = some '[' then { scan with header := .list }
      else { scan with header := .group }
    else { scan with depth := scan.depth + 1 }
  else if c = ']' then
    match scan.header with
    | .group => { scan with header := .none }
    | .list =>
        if scan.charAt? ((position : Int) - 1) = some ']' then
          { scan with header := .none }
        else scan
    | .none => { scan with depth := scan.depth - 1 }
  else scan

def dropFirstLineFeed (scan : Scan) (position : Nat) : Scan :=
  match scan.charAt? ((position : Int) - 1) with
  | some quote =>
      if isQuote quote &&
          scan.charAt? ((position : Int) - 2) == some quote then
        let chars := scan.chars.setIfInBounds position quote
        if scan.charAt? ((position : Int) - 3) = some quote then
          { scan with chars := chars.setIfInBounds (position - 3) ' ' }
        else { scan with chars := chars }
      else scan
  | none => scan

/-- What a line feed or the first character of a line does. -/
def atLine (scan : Scan) (position : Nat) (c : Char) : Except Flaw Scan :=
  if c = '\n' then
    if scan.quote.isSome || scan.multiline then
      if scan.multiline then .ok (scan.dropFirstLineFeed position)
      else .error .malformed
    else if scan.depth ≠ 0 then
      .ok { scan with chars := scan.chars.setIfInBounds position ' ' }
    else .ok { scan with lineStart := true }
  else
    let current := scan.chars[position]?.getD ' '
    if scan.lineStart && current != ' ' && current != '\t' then
      if scan.header = .none then
        if current = '=' then .error .malformed
        else .ok { scan with lineStart := false, key := .name }
      else .ok { scan with lineStart := false }
    else .ok scan

def nextPart (scan : Scan) (position : Nat) : Except Flaw Scan :=
  match scan.chars[position + 1]? with
  | none => .error .truncated
  | some next =>
      if !Text.isBlank next && next != '.' then
        .ok { scan with key := .name }
      else .ok scan

/-- What a character does inside a key, and whether it is used up by that. -/
def atKey (scan : Scan) (position : Nat) (c : Char) :
    Except Flaw (Scan × Bool) :=
  if c = '\n' then .error .malformed
  else
    match scan.quote with
    | some quote =>
        if c = quote &&
            !scan.oddBackslashes ((position : Int) - 1) scan.chars.size then
          .ok ({ scan with key := .afterName, quote := none }, true)
        else .ok (scan, true)
    | none =>
        if scan.key = .name && Text.isBlank c then
          .ok ({ scan with key := .afterName }, true)
        else if scan.key = .name && c = '.' then
          .ok ({ scan with dotted := true }, true)
        else if scan.key = .name &&
            (Text.isAlphanumeric c || c = '_' || c = '-') then
          .ok (scan, true)
        else if scan.key = .name && scan.dotted && isQuote c &&
            scan.charAt? ((position : Int) - 1) == some '.' then
          .ok ({ scan with quote := some c }, true)
        else if scan.key = .afterName && Text.isBlank c then
          if scan.dotted then do return (← scan.nextPart position, true)
          else .ok (scan, true)
        else if scan.key = .afterName && c = '.' then do
          return (← { scan with dotted := true }.nextPart position, true)
        else if c = '=' then
          .ok ({ scan with key := .outside, dotted := false }, false)
        else .error .malformed

def atValue (scan : Scan) (position : Nat) (c : Char) : Except Flaw Scan :=
  let quoted := scan.atQuote position c
  let blanked := quoted.atComment position c
  (blanked.atBracket position c).atLine position c

def step (scan : Scan) (position : Nat) : Except Flaw Scan :=
  match scan.chars[position]? with
  | none => .ok scan
  | some c =>
      if scan.key = .outside then scan.atValue position c
      else do
        let (next, used) ← scan.atKey position c
        if used then return next
        else next.atValue position c

def run (scan : Scan) (position : Nat) : Nat → Except Flaw Scan
  | 0 => .ok scan
  | count + 1 => do
      let next ← scan.step position
      next.run (position + 1) count

end Scan

def lines (text : List Char) : Except Flaw (List (List Char)) := do
  let scan ← ({ chars := text.toArray } : Scan).run 0 text.length
  if scan.key = .outside ∧ scan.quote = none then
    return Text.splitOn '\n' scan.chars.toList
  else throw .malformed

end ContractAtlas.Toml
