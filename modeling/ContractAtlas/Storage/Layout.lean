/-
Storage layouts: numbered slots with their members, and the constants that
take no storage.
-/

import ContractAtlas.Storage.Packing
import ContractAtlas.Storage.SlotKey

namespace ContractAtlas

structure Constant where
  name : Datum
  type : Datum
  visibility : Datum
  mutability : Datum
  constant : Bool
  source : String := ""
  path : Datum := .text ""

def Constant.document (constant : Constant) : Document :=
  .fields
    [("name", .value constant.name), ("type", .value constant.type),
      ("visibility", .value constant.visibility),
      ("mutability", .value constant.mutability),
      ("constant", .flag constant.constant), ("source", .text constant.source),
      ("absolute_path", .value constant.path)]

structure Slot where
  key : String
  members : Storage.SlotGroup

structure Layout where
  slots : List Slot := []
  constants : List Constant := []

namespace Storage

def arrayLength? : SlotGroup → Option Nat
  | [member] =>
      match TypeName.staticLength? member.info.type.toList with
      | some 0 => none
      | length => length
  | _ => none

/-- Slots of a group: one per element of a fixed-size array that stands
alone, otherwise one. -/
def slotCount (group : SlotGroup) : Nat :=
  (arrayLength? group).getD 1

def slotsFrom (first : Nat) : List SlotGroup → List Slot
  | [] => []
  | group :: rest =>
      (List.range (slotCount group)).map
          (fun i => { key := slotKey (first + i), members := group }) ++
        slotsFrom (first + slotCount group) rest

def assignKeys (groups : List SlotGroup) : Layout :=
  { slots := slotsFrom 0 groups }

def lengthFault? : SlotGroup → Option Fault
  | [member] => TypeName.dimensionFault? member.info.type.toList
  | _ => none

def number (groups : List SlotGroup) : Except Fault Layout :=
  match groups.findSome? lengthFault? with
  | some fault => .error fault
  | none => .ok (assignKeys groups)

def layOut (members : List Member) : Except Fault Layout :=
  match pack members with
  | .ok groups => number groups
  | .error fault => .error fault

def largeArrayLimit : Nat := 4096

/-- The groups that are large fixed arrays, with their lengths, as far as the
lengths can be read. -/
def largeArrays (groups : List SlotGroup) : List (Json × Nat) :=
  (groups.takeWhile fun group => (lengthFault? group).isNone).filterMap
    fun group =>
      match group, arrayLength? group with
      | member :: _, some length =>
          if largeArrayLimit < length then some (member.info.name.value, length)
          else none
      | _, _ => none

end Storage

namespace Layout

/-- The members filed under a key; none for a key that is not there. -/
def membersUnder (layout : Layout) (key : String) : Storage.SlotGroup :=
  match layout.slots.find? fun slot => slot.key == key with
  | some slot => slot.members
  | none => []

def membersAt (layout : Layout) (index : Int) :
    Except Fault Storage.SlotGroup := do
  let key ← Storage.slotKeyOf index
  return layout.membersUnder key

def usedBytes (layout : Layout) (key : String) : Nat :=
  Storage.groupSize (layout.membersUnder key)

def find (layout : Layout) (name : String) : List (String × Member) :=
  layout.slots.flatMap fun slot =>
    (slot.members.filter fun member => member.info.name.value.isText name).map
      fun member => (slot.key, member)

def document (layout : Layout) : Document :=
  .fields
    [("slots",
        .fields
          (layout.slots.map fun slot =>
            (slot.key, .list (slot.members.map Member.document)))),
      ("constants", .list (layout.constants.map Constant.document))]

def memberLine (member : Member) : String :=
  let info := member.info
  let origin :=
    match info.parent with
    | some parent => " <- " ++ parent.name.value.spelling
    | none => ""
  "  " ++ info.name.value.spelling ++ " (" ++ info.type ++ ") [offset: " ++
    toString info.offset ++ ", size: " ++ info.size.spelling ++ "]" ++ origin

def slotLines (slot : Slot) : List String :=
  let index := (Storage.slotIndex? slot.key).getD 0
  let head :=
    "Slot " ++ toString index ++ " (" ++
      toString (Storage.groupSize slot.members) ++ "/" ++
      toString TypeName.slotSize ++ " bytes)"
  head :: slot.members.map memberLine

def constantLine (constant : Constant) : String :=
  "Constant " ++ constant.name.value.spelling ++ " (" ++
    constant.type.value.spelling ++ ", " ++ constant.mutability.value.spelling ++
    ")"

def text (layout : Layout) : String :=
  "\n".intercalate
    (["Storage Layout:", "----------------"] ++
      layout.slots.flatMap slotLines ++
      layout.constants.map constantLine)

end Layout

end ContractAtlas
