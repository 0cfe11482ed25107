/-
Storage members: state variables, and the fields of struct variables.

Names and other attributes are values of the compiler's document and are
carried as they stand there.
-/

import ContractAtlas.Json.Document
import ContractAtlas.Solidity.Width

namespace ContractAtlas

structure Provenance where
  type : String
  name : Datum

/-- What is known of a member besides its parts.  The offset counts bytes
within the slot. -/
structure MemberInfo where
  name : Datum
  type : String
  size : Json
  visibility : Datum := .text "internal"
  mutability : Datum := .text "mutable"
  constant : Bool := false
  path : Datum := .text ""
  offset : Nat := 0
  parent : Option Provenance := none
deriving Inhabited

inductive Member where
  | mk (info : MemberInfo) (parts : Option (List Member))
deriving Inhabited

namespace Member

def info : Member → MemberInfo
  | mk info _ => info

def parts : Member → Option (List Member)
  | mk _ parts => parts

/-- Bytes that the member takes: an integer from one to the slot size. -/
def width? (member : Member) : Option Nat :=
  match member.info.size.toInt? with
  | some (.ofNat bytes) =>
      if 1 ≤ bytes ∧ bytes ≤ TypeName.slotSize then some bytes else none
  | _ => none

def width (member : Member) : Nat :=
  member.width?.getD 0

def withOffset (offset : Nat) : Member → Member
  | mk info parts => mk { info with offset := offset } parts

def shift (distance : Nat) (member : Member) : Member :=
  member.withOffset (member.info.offset + distance)

mutual

def leaves : Member → List Member
  | mk _ (some (part :: rest)) => leavesOfAll (part :: rest)
  | member => [member]

def leavesOfAll : List Member → List Member
  | [] => []
  | member :: rest => leaves member ++ leavesOfAll rest

end

def document (member : Member) : Document :=
  let info := member.info
  let parent :=
    match info.parent with
    | some parent =>
        [("parent",
          Document.fields
            [("type", .text parent.type), ("name", .value parent.name)])]
    | none => []
  .fields
    ([("name", .value info.name), ("type", .text info.type),
        ("size", .value (.plain info.size)), ("offset", .count info.offset),
        ("visibility", .value info.visibility),
        ("mutability", .value info.mutability),
        ("constant", .flag info.constant),
        ("absolute_path", .value info.path)] ++ parent)

end Member

end ContractAtlas
