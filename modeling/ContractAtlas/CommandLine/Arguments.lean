/-
Arguments of the command line.

Long options may be shortened as long as they stay unique and take a value
after an equals sign or in the next argument.  Short options may be joined,
the last of them perhaps with its value.  After two dashes everything is a
path, and all paths stand together.
-/

import ContractAtlas.Report.Export
import ContractAtlas.Text.Integer

namespace ContractAtlas

/-- The value of an option.  A value of two dashes does not count: the option
is then there with nothing as its value. -/
inductive Operand (α : Type) where
  | nothing
  | given (value : α)

def Operand.getD {α : Type} (operand : Operand α) (fallback : α) : α :=
  match operand with
  | nothing => fallback
  | given value => value

structure Arguments where
  paths : List String := []
  file : Option (Operand String) := none
  includeAll : Bool := false
  includeDeps : Bool := false
  noStatic : Bool := false
  includeLowLevel : Bool := false
  ignore : List (Operand String) := []
  workers : Operand Int := .given 1
  format : Operand Format := .given .summary
  output : Option (Operand String) := none
  verbose : Bool := false
  logJson : Bool := false

namespace Arguments

def textOf (operand : Option (Operand String)) : String :=
  match operand with
  | some operand => operand.getD ""
  | none => ""

def filePath (arguments : Arguments) : String :=
  textOf arguments.file

def outputPath (arguments : Arguments) : String :=
  textOf arguments.output

def options (arguments : Arguments) : AnalysisOptions :=
  { includeAll := arguments.includeAll
    includeDeps := arguments.includeDeps
    noStatic := arguments.noStatic
    includeLowLevel := arguments.includeLowLevel
    workers := arguments.workers.getD 1
    ignorePrefixes :=
      if arguments.ignore.isEmpty then defaultIgnorePrefixes
      else arguments.ignore.map fun start => start.getD "" }

end Arguments

inductive Refusal where
  | help
  | usage
deriving DecidableEq

def Refusal.exitCode : Refusal → Nat
  | help => 0
  | usage => 2

namespace CommandLine

inductive Switch where
  | help
  | file
  | includeAll
  | includeDeps
  | noStatic
  | includeLowLevel
  | ignore
  | workers
  | format
  | output
  | verbose
  | logJson
deriving DecidableEq

def spellings : List (List Char × Switch) :=
  [("-h".toList, .help), ("--help".toList, .help), ("--file".toList, .file),
    ("--include-all".toList, .includeAll),
    ("--include-deps".toList, .includeDeps),
    ("--no-static".toList, .noStatic),
    ("--include-low-level".toList, .includeLowLevel),
    ("--ignore".toList, .ignore), ("--workers".toList, .workers),
    ("--format".toList, .format), ("--output".toList, .output),
    ("-o".toList, .output), ("--verbose".toList, .verbose),
    ("-v".toList, .verbose), ("--log-json".toList, .logJson)]

def Switch.takesValue : Switch → Bool
  | file => true
  | ignore => true
  | workers => true
  | format => true
  | output => true
  | _ => false

inductive Item where
  | word (text : String)
  | separator
  /-- A switch, with the text in the same argument: what follows an equals
  sign, or the characters right behind a short switch. -/
  | switch (switch : Switch) (isShort : Bool) (attached : Option (List Char))
  | unknown

def splitValue (text : List Char) : List Char × Option (List Char) :=
  match Text.splitAtMost ['='] 1 text with
  | [name, value] => (name, some value)
  | _ => (text, none)

def isShortSpelling : List Char → Bool
  | '-' :: '-' :: _ => false
  | _ => true

/-- A dash and a number, whole or with a point. -/
def isNegativeNumber : List Char → Bool
  | '-' :: rest =>
      let number :=
        if rest.getLast? == some '\n' then rest.dropLast else rest
      match number.dropWhile Text.isDigit with
      | [] => !number.isEmpty
      | '.' :: fraction => !fraction.isEmpty && fraction.all Text.isDigit
      | _ => false
  | _ => false

def candidates (text : List Char) : List Item :=
  match text with
  | '-' :: '-' :: _ =>
      let (name, value) := splitValue text
      (spellings.filter fun entry => name.isPrefixOf entry.1).map fun entry =>
        .switch entry.2 false value
  | '-' :: letter :: rest =>
      (spellings.filter fun entry => entry.1 == ['-', letter]).map fun entry =>
        .switch entry.2 true (some rest)
  | _ => []

def classifyDashed (text : List Char) : Except Refusal Item :=
  let (name, value) := splitValue text
  match spellings.lookup name with
  | some switch => .ok (.switch switch (isShortSpelling name) value)
  | none =>
      match candidates text with
      | _ :: _ :: _ => .error .usage
      | [item] => .ok item
      | [] =>
          if isNegativeNumber text || text.contains ' ' then
            .ok (.word (String.ofList text))
          else .ok .unknown

def classifyOne (text : List Char) : Except Refusal Item :=
  match text with
  | '-' :: _ :: _ =>
      match spellings.lookup text with
      | some switch => .ok (.switch switch (isShortSpelling text) none)
      | none => classifyDashed text
  | _ => .ok (.word (String.ofList text))

def classify : List String → Except Refusal (List Item)
  | [] => .ok []
  | argument :: rest =>
      if argument == "--" then .ok (.separator :: rest.map .word)
      else do
        let item ← classifyOne argument.toList
        return item :: (← classify rest)

def setFlag (arguments : Arguments) : Switch → Except Refusal Arguments
  | .help => .error .help
  | .includeAll => .ok { arguments with includeAll := true }
  | .includeDeps => .ok { arguments with includeDeps := true }
  | .noStatic => .ok { arguments with noStatic := true }
  | .includeLowLevel => .ok { arguments with includeLowLevel := true }
  | .verbose => .ok { arguments with verbose := true }
  | .logJson => .ok { arguments with logJson := true }
  | _ => .error .usage

def setNothing (arguments : Arguments) : Switch → Except Refusal Arguments
  | .file => .ok { arguments with file := some .nothing }
  | .ignore => .ok { arguments with ignore := arguments.ignore ++ [.nothing] }
  | .output => .ok { arguments with output := some .nothing }
  | .workers => .ok { arguments with workers := .nothing }
  | .format => .ok { arguments with format := .nothing }
  | _ => .error .usage

def setText (arguments : Arguments) (text : String) :
    Switch → Except Refusal Arguments
  | .file => .ok { arguments with file := some (.given text) }
  | .ignore =>
      .ok { arguments with ignore := arguments.ignore ++ [.given text] }
  | .output => .ok { arguments with output := some (.given text) }
  | .workers =>
      match Text.readDecimal text.toList with
      | some workers => .ok { arguments with workers := .given workers }
      | none => .error .usage
  | .format =>
      match Format.ofName? text with
      | some format => .ok { arguments with format := .given format }
      | none => .error .usage
  | _ => .error .usage

def setValue (arguments : Arguments) (value : String) (switch : Switch) :
    Except Refusal Arguments :=
  if value == "--" then setNothing arguments switch
  else setText arguments value switch

/-- The switches of one argument: those without a value, then perhaps one
with its value attached or still to come. -/
structure Cluster where
  flags : List Switch
  last : Option (Switch × Option (List Char)) := none

/-- The switches that are joined behind a short one; the first that takes a
value has the rest of the text, if there is any, as its value. -/
def cluster (flags : List Switch) : List Char → Except Refusal Cluster
  | [] => .ok { flags := flags }
  | letter :: rest =>
      match spellings.lookup ['-', letter] with
      | none => .error .usage
      | some switch =>
          if switch.takesValue then
            let value := if rest.isEmpty then none else some rest
            .ok { flags := flags, last := some (switch, value) }
          else cluster (flags ++ [switch]) rest

def setFlags (arguments : Arguments) (flags : List Switch) :
    Except Refusal Arguments :=
  flags.foldlM setFlag arguments

/-- The switches that an item stands for.  Text attached to a switch without a
value holds further short switches. -/
def expand (switch : Switch) (isShort : Bool) (attached : Option (List Char)) :
    Except Refusal Cluster :=
  if switch.takesValue then
    .ok { flags := [], last := some (switch, attached) }
  else
    match attached with
    | none => .ok { flags := [switch] }
    | some text =>
        if isShort && !text.isEmpty then cluster [switch] text
        else .error .usage

structure Reading where
  arguments : Arguments := {}
  hasPaths : Bool := false
  hasExtras : Bool := false

def Reading.word (reading : Reading) (together : Bool) (text : String) :
    Reading :=
  if reading.hasPaths && !together then { reading with hasExtras := true }
  else
    { reading with
      hasPaths := true
      arguments :=
        { reading.arguments with paths := reading.arguments.paths ++ [text] } }

def Reading.carryOut (reading : Reading) (found : Cluster) :
    Except Refusal Reading := do
  let flagged ← setFlags reading.arguments found.flags
  let arguments ←
    match found.last with
    | some (switch, some value) => setValue flagged (String.ofList value) switch
    | _ => pure flagged
  return { reading with arguments := arguments }

def Cluster.waiting (found : Cluster) : Option Switch :=
  match found.last with
  | some (switch, none) => some switch
  | _ => none

def startsWithWord : List Item → Bool
  | .word _ :: _ => true
  | _ => false

/-- Takes in items; `together` says that the item before was a path, and
`waiting` is a switch whose value has to come next. -/
def readItems (reading : Reading) (together : Bool)
    (waiting : Option Switch) : List Item → Except Refusal Reading
  | [] => .ok reading
  | .word text :: rest =>
      match waiting with
      | some switch => do
          let arguments ← setValue reading.arguments text switch
          readItems { reading with arguments := arguments } false none rest
      | none =>
          readItems (reading.word together text)
            (together || !reading.hasPaths) none rest
  | .separator :: rest =>
      if rest.isEmpty && !together then .error .usage
      else readItems reading together none rest
  | .unknown :: rest =>
      readItems { reading with hasExtras := true } false none rest
  | .switch switch isShort attached :: rest => do
      let found ← expand switch isShort attached
      if found.waiting.isSome && !startsWithWord rest then throw .usage
      let next ← reading.carryOut found
      readItems next false found.waiting rest

def parse (arguments : List String) : Except Refusal Arguments := do
  let reading ← readItems {} false none (← classify arguments)
  if reading.hasPaths && !reading.hasExtras then return reading.arguments
  else throw .usage

end CommandLine

end ContractAtlas
