/-
YAML scalars: the choice between plain text, single and double quotes, and
the folding of long texts.

Plain and single-quoted text is folded at single blanks once the line is
longer than the line width; double-quoted text is folded with a backslash at
the end of the line.
-/

import ContractAtlas.Text.Quoted
import ContractAtlas.Yaml.Meaning

namespace ContractAtlas.Yaml

def lineWidth : Nat := 80

inductive Style where
  | plain
  | singleQuoted
  | doubleQuoted
deriving DecidableEq

def isBreak (c : Char) : Bool :=
  c = '\n' || c = '\u0085' || c = '\u2028' || c = '\u2029'

def isSeparator (c : Char) : Bool :=
  c = '\x00' || c = ' ' || c = '\t' || c = '\r' || isBreak c

def beforeSeparator : List Char → Bool
  | [] => true
  | c :: _ => isSeparator c

/-- Outside printable ASCII and no line feed. -/
def isSpecial (c : Char) : Bool :=
  !(c = '\n' || (0x20 ≤ c.toNat && c.toNat ≤ 0x7E))

def startsWithIndicator : List Char → Bool
  | [] => false
  | '-' :: '-' :: '-' :: _ => true
  | '.' :: '.' :: '.' :: _ => true
  | c :: rest =>
      "#,[]\x7b\x7d&*!|>'\"%@\x60".toList.contains c ||
        ((c = '?' || c = ':' || c = '-') && beforeSeparator rest)

/-- A colon before a separator, or a number sign after one. -/
def hasIndicatorInside : List Char → Bool
  | previous :: c :: rest =>
      (c = ':' && beforeSeparator rest) || (c = '#' && isSeparator previous) ||
        hasIndicatorInside (c :: rest)
  | _ => false

/-- A character of the first kind right before one of the second. -/
def hasPair (first second : Char → Bool) : List Char → Bool
  | c :: next :: rest =>
      (first c && second next) || hasPair first second (next :: rest)
  | _ => false

def isBlankOrBreak (c : Char) : Bool :=
  c = ' ' || isBreak c

def allowsPlain (text : List Char) : Bool :=
  !(startsWithIndicator text || hasIndicatorInside text || text.any isSpecial ||
    text.any isBreak || text.head?.any isBlankOrBreak ||
    text.getLast?.any isBlankOrBreak)

def allowsSingleQuotes (text : List Char) : Bool :=
  !(text.any isSpecial || hasPair isBreak (· = ' ') text ||
    hasPair (· = ' ') isBreak text)

def styleOf (text : List Char) : Style :=
  if !readsAsOther text && allowsPlain text then .plain
  else if allowsSingleQuotes text then .singleQuoted
  else .doubleQuoted

/-- A key on one line with its value is shorter than this, its tag
included. -/
def simpleKeyLimit : Nat := 128

structure Frame where
  indent : Nat
  folded : Bool

def Frame.lineStart (frame : Frame) : List Char :=
  '\n' :: List.replicate frame.indent ' '

inductive Run where
  | word (text : List Char)
  | blanks (count : Nat)
  | breaks (count : Nat)

def Run.push (c : Char) : List Run → List Run
  | word text :: rest =>
      if c = ' ' then blanks 1 :: word text :: rest
      else if c = '\n' then breaks 1 :: word text :: rest
      else word (c :: text) :: rest
  | blanks count :: rest =>
      if c = ' ' then blanks (count + 1) :: rest
      else if c = '\n' then breaks 1 :: blanks count :: rest
      else word [c] :: blanks count :: rest
  | breaks count :: rest =>
      if c = ' ' then blanks 1 :: breaks count :: rest
      else if c = '\n' then breaks (count + 1) :: rest
      else word [c] :: breaks count :: rest
  | [] =>
      if c = ' ' then [blanks 1]
      else if c = '\n' then [breaks 1]
      else [word [c]]

def Run.split (text : List Char) : List Run :=
  text.foldr Run.push []

/-- Writes runs from a column on.  A single blank inside the text becomes a
new line when the line is too long; a line feed is written as an empty
line. -/
def foldRuns (frame : Frame) (first : Bool) (column : Nat) :
    List Run → List Char
  | [] => []
  | .word text :: rest =>
      text ++ foldRuns frame false (column + text.length) rest
  | .blanks count :: rest =>
      if frame.folded && count = 1 && lineWidth < column && !first &&
          !rest.isEmpty then
        frame.lineStart ++ foldRuns frame false frame.indent rest
      else
        List.replicate count ' ' ++ foldRuns frame false (column + count) rest
  | .breaks count :: rest =>
      List.replicate count '\n' ++ frame.lineStart ++
        foldRuns frame false frame.indent rest

def plainText (frame : Frame) (column : Nat) (text : List Char) : List Char :=
  foldRuns frame true column (Run.split text)

def doubleQuotes (text : List Char) : List Char :=
  text.flatMap fun c => if c = '\'' then ['\'', '\''] else [c]

def singleQuotedText (frame : Frame) (column : Nat) (text : List Char) :
    List Char :=
  '\'' ::
    foldRuns frame true (column + 1) (Run.split (doubleQuotes text)) ++ ['\'']

def shortEscapes : List (Char × Char) :=
  [('\x00', '0'), ('\x07', 'a'), ('\x08', 'b'), ('\t', 't'), ('\n', 'n'),
    ('\x0B', 'v'), ('\x0C', 'f'), ('\r', 'r'), ('\x1B', 'e'), ('"', '"'),
    ('\\', '\\'), ('\u0085', 'N'), ('\u00A0', '_'), ('\u2028', 'L'),
    ('\u2029', 'P')]

def upperHex (width value : Nat) : List Char :=
  (Text.paddedHex width value).map Char.toUpper

def escape? (c : Char) : Option (List Char) :=
  if 0x20 ≤ c.toNat ∧ c.toNat ≤ 0x7E ∧ c ≠ '"' ∧ c ≠ '\\' then none
  else
    match shortEscapes.lookup c with
    | some letter => some ['\\', letter]
    | none =>
        if c.toNat ≤ 0xFF then some ('\\' :: 'x' :: upperHex 2 c.toNat)
        else if c.toNat ≤ 0xFFFF then some ('\\' :: 'u' :: upperHex 4 c.toNat)
        else some ('\\' :: 'U' :: upperHex 8 c.toNat)

/-- What follows a fold in double quotes: a blank needs a backslash. -/
def afterFold (next : Option Char) : List Char :=
  if next = some ' ' then ['\\'] else []

/-- Writes the inside of double quotes from a column on.  A fold comes before
a blank, after an escape, or between an escape and the next character; never
at the first or the last character. -/
def foldEscaped (frame : Frame) (first afterEscape : Bool) (column : Nat) :
    List Char → List Char
  | [] => []
  | c :: rest =>
      let inside := frame.folded && !first && !rest.isEmpty
      match escape? c with
      | some escaped =>
          if inside && lineWidth < column + escaped.length - 1 then
            let start := afterFold rest.head?
            escaped ++ '\\' :: frame.lineStart ++ start ++
              foldEscaped frame false true (frame.indent + start.length) rest
          else
            escaped ++
              foldEscaped frame false true (column + escaped.length) rest
      | none =>
          if inside && (c = ' ' || afterEscape) && lineWidth < column then
            let start := afterFold (some c)
            '\\' :: frame.lineStart ++ start ++ c ::
              foldEscaped frame false false (frame.indent + start.length + 1)
                rest
          else c :: foldEscaped frame false false (column + 1) rest

def doubleQuotedText (frame : Frame) (column : Nat) (text : List Char) :
    List Char :=
  '"' :: foldEscaped frame true false (column + 1) text ++ ['"']

def textScalar (frame : Frame) (column : Nat) (text : List Char) : List Char :=
  match styleOf text with
  | .plain => plainText frame column text
  | .singleQuoted => singleQuotedText frame column text
  | .doubleQuoted => doubleQuotedText frame column text

end ContractAtlas.Yaml
