/-
The source text of a node, cut out of the content of its unit by bytes.

A content is a text of Unicode scalar values, so all of it can be encoded and
the only fault is a location that is no text.
-/

import ContractAtlas.Source.Compilation
import ContractAtlas.Text.Integer
import ContractAtlas.Text.Split
import ContractAtlas.Text.Utf8

namespace ContractAtlas.Excerpt

def span? (src : List Char) : Option (Int × Int) :=
  match Text.splitOn ':' src with
  | start :: length :: _ => do
      let start ← Text.readDecimal start
      let length ← Text.readDecimal length
      some (start, length)
  | _ => none

def cut (content : List Char) (start length : Int) : List Char :=
  Text.Utf8.decodeLossy
    (Text.Utf8.slice (Text.Utf8.encode content) start (start + length))

/-- The text at a source location of a content; empty if there is no content
or no location. -/
def textAt (content : String) (src : Json) : Except Fault String :=
  if content.isEmpty || !src.isGiven then .ok ""
  else
    match src with
    | .str location =>
        match span? location.toList with
        | some (start, length) =>
            .ok (String.ofList (cut content.toList start length))
        | none => .ok ""
    | other => .error (.noOperation other.shape "split")

end Excerpt

def Compilation.sourceText (compilation : Compilation) (node : Node) :
    Except Fault String :=
  match compilation.unitOf? node with
  | some unit => Excerpt.textAt (compilation.contentOf unit) node.src
  | none => .ok ""

end ContractAtlas
