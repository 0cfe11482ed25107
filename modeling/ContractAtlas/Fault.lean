/-
Causes of failure.

Each constructor is one cause with what is needed to describe it; the wording
is in `Fault.message`.
-/

import ContractAtlas.Json.Datum
import ContractAtlas.Json.Spelling
import ContractAtlas.Text.Integer

namespace ContractAtlas

inductive Fault where
  | unknownType (type : String) (member : Datum)
  | structNotFlattened (type : String)
  | invalidSize (name : Json) (type : String) (size : Json)
  | structUnresolved (name : Json) (type : String)
  | structRecursive (name : Json)
  | outputNotObject
  | noSyntaxTrees
  | notSourceUnit (path : String)
  | artifactPathMissing (path : String)
  | buildInfoMissing (directory : String)
  | artifactFileMissing (path : String)
  | artifactNotJson (path : String)
  | noMatchingUnit (file : String)
  | notCallable (label : String)
  | negativeSlot (index : Int)
  | notSlotKey (key : String)
  | numberTooLong (digits : Nat)
  | unsupportedFormat (format : String)
  /-- A value of a shape that does not offer the operation. -/
  | noOperation (shape : Json.Shape) (operation : String)
  /-- A list or an object where a key is needed. -/
  | noKey (shape : Json.Shape)
  | notIterable (shape : Json.Shape)
  /-- A value other than text among texts that are joined. -/
  | notJoinable (position : Nat) (shape : Json.Shape)
  | notComparable (left right : Json.Shape)
  | notPath
  /-- An option with nothing as its value. -/
  | valueMissing
  | entryMissing (key : String)
  | noEntries (shape : Json.Shape)
  | documentTooDeep
  | fileMissing (path : String)
  | fileIsDirectory (path : String)
  | fileNotDirectory (path : String)
  | fileNameTooLong (path : String)
  | fileNotUtf8
  /-- A path with a null character. -/
  | pathUnusable
  | configTruncated
  | configNotTable
  | configNotList
  /-- A configuration value over several lines under an empty key. -/
  | configUnnamed
  | configOverflow
  | profileNotTable

namespace Fault

/-- Faults of sizing and packing other than an unknown type. -/
def isLayout : Fault → Bool
  | structNotFlattened _ => true
  | invalidSize _ _ _ => true
  | structUnresolved _ _ => true
  | structRecursive _ => true
  | _ => false

def isFile : Fault → Bool
  | fileMissing _ => true
  | fileIsDirectory _ => true
  | fileNotDirectory _ => true
  | fileNameTooLong _ => true
  | _ => false

def isAnalysis : Fault → Bool
  | unknownType _ _ => true
  | outputNotObject => true
  | noSyntaxTrees => true
  | notSourceUnit _ => true
  | artifactPathMissing _ => true
  | buildInfoMissing _ => true
  | artifactFileMissing _ => true
  | artifactNotJson _ => true
  | noMatchingUnit _ => true
  | notCallable _ => true
  | fault => fault.isLayout

def message : Fault → String
  | unknownType type member =>
      let holder :=
        if member.value.isGiven then
          " (member '" ++ member.value.spelling ++ "')"
        else ""
      "UnknownType: cannot size '" ++ type ++ "'" ++ holder
  | structNotFlattened type =>
      "Struct type '" ++ type ++ "' must be flattened before packing"
  | invalidSize name type size =>
      "Member '" ++ name.spelling ++ "' (" ++ type ++ ") has invalid size " ++
        size.quotedSpelling
  | structUnresolved name type =>
      "Cannot resolve struct definition of '" ++ name.spelling ++ "' (" ++
        type ++ ")"
  | structRecursive name =>
      "Struct '" ++ name.spelling ++ "' contains itself by value"
  | outputNotObject => "Compiler output must be a JSON object"
  | noSyntaxTrees => "No ASTs found in compiler output"
  | notSourceUnit path => "AST for '" ++ path ++ "' is not a SourceUnit"
  | artifactPathMissing path => "Artifact path not found: " ++ path
  | buildInfoMissing directory => "No build-info found in " ++ directory
  | artifactFileMissing path => "Artifact file not found: " ++ path
  | artifactNotJson path => "Invalid JSON in " ++ path
  | noMatchingUnit file => "No source unit matches " ++ file
  | notCallable label => "Cannot build a call tree from " ++ label
  | negativeSlot index =>
      "Slot index must be non-negative, got " ++ toString index
  | notSlotKey key => "Slot key is no number: " ++ Text.quoted key
  | numberTooLong digits =>
      "Exceeds the limit (" ++ toString Text.decimalLimit ++
        " digits) for integer string conversion: value has " ++
        toString digits ++
        " digits; use sys.set_int_max_str_digits() to increase the limit"
  | unsupportedFormat format => "Unsupported output format: " ++ format
  | noOperation shape operation =>
      "'" ++ shape.name ++ "' object has no attribute '" ++ operation ++ "'"
  | noKey shape => "unhashable type: '" ++ shape.name ++ "'"
  | notIterable shape => "'" ++ shape.name ++ "' object is not iterable"
  | notJoinable position shape =>
      "sequence item " ++ toString position ++ ": expected str instance, " ++
        shape.name ++ " found"
  | notComparable left right =>
      "'" ++ left.name ++ "' and '" ++ right.name ++ "' have no order"
  | notPath => "Path is no text"
  | valueMissing => "Option without a value"
  | entryMissing key => "Entry missing: " ++ Text.quoted key
  | noEntries shape => "'" ++ shape.name ++ "' object has no entries"
  | documentTooDeep => "Document is nested too deeply"
  | fileMissing path =>
      "[Errno 2] No such file or directory: " ++ Text.quoted path
  | fileIsDirectory path => "[Errno 21] Is a directory: " ++ Text.quoted path
  | fileNotDirectory path => "[Errno 20] Not a directory: " ++ Text.quoted path
  | fileNameTooLong path =>
      "[Errno 36] File name too long: " ++ Text.quoted path
  | fileNotUtf8 => "File is not UTF-8"
  | pathUnusable => "Path holds a null character"
  | configTruncated => "Configuration ends inside an item"
  | configNotTable => "Configuration key below a value that is no table"
  | configNotList => "Configuration item added to a value that is no list"
  | configUnnamed => "Configuration value without a key"
  | configOverflow => "Configuration number out of range"
  | profileNotTable => "Configuration profile is no table"

end Fault

end ContractAtlas
