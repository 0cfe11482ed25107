/-
Packing members into slots.

Members are placed in order.  What is placed is a block: a single member, or
a group of a member's parts that were packed on their own.  A block joins the
open slot if it fits and starts a new slot otherwise.
-/

import ContractAtlas.Storage.Member

namespace ContractAtlas.Storage

abbrev SlotGroup := List Member

def groupSize : SlotGroup → Nat
  | [] => 0
  | member :: rest => member.width + groupSize rest

/-- Slots that are finished, newest first, and the slot being filled. -/
structure Packing where
  finished : List SlotGroup
  current : SlotGroup
  used : Nat

namespace Packing

def empty : Packing :=
  { finished := [], current := [], used := 0 }

def close (packing : Packing) : List SlotGroup :=
  if packing.current.isEmpty then packing.finished
  else packing.current :: packing.finished

def place (packing : Packing) (block : SlotGroup) : Packing :=
  if TypeName.slotSize < packing.used + groupSize block then
    { finished := packing.close
      current := block
      used := groupSize block }
  else
    { finished := packing.finished
      current := packing.current ++ block.map (Member.shift packing.used)
      used := packing.used + groupSize block }

def groups (packing : Packing) : List SlotGroup :=
  packing.close.reverse

end Packing

def arrange (blocks : List SlotGroup) : List SlotGroup :=
  (blocks.foldl Packing.place Packing.empty).groups

mutual

def blocksOf : Member → Except Fault (List SlotGroup)
  | .mk _ (some (part :: rest)) =>
      match blocksOfAll (part :: rest) with
      | .ok blocks => .ok (arrange blocks)
      | .error fault => .error fault
  | member =>
      match member.width? with
      | some _ => .ok [[member.withOffset 0]]
      | none =>
          .error
            (.invalidSize member.info.name.value member.info.type
              member.info.size)

def blocksOfAll : List Member → Except Fault (List SlotGroup)
  | [] => .ok []
  | member :: rest =>
      match blocksOf member with
      | .error fault => .error fault
      | .ok blocks =>
          match blocksOfAll rest with
          | .error fault => .error fault
          | .ok others => .ok (blocks ++ others)

end

/-- Packs members into slots; fails at the first member without parts whose
size is no width. -/
def pack (members : List Member) : Except Fault (List SlotGroup) :=
  match blocksOfAll members with
  | .ok blocks => .ok (arrange blocks)
  | .error fault => .error fault

end ContractAtlas.Storage
