/-
Blocks of slots.

Numbering gives each group a block of consecutive slots, as many as the group is
wide, and the blocks follow one another from slot zero on.  Different slots
have different keys, so that filing them under their keys replaces none.  All
this holds unless some length cannot be read; then numbering stops at the first
group with such a length.
-/

import Mathlib.Data.List.Nodup
import ContractAtlas.Proofs.Storage.Outcome

namespace ContractAtlas

namespace Storage

/-- The width of a group: the length of a fixed-size array that stands alone and
is not empty, otherwise one. -/
def blockWidth : SlotGroup → Nat
  | [member] =>
      max 1 ((TypeName.staticLength? member.info.type.toList).getD 1)
  | _ => 1

private theorem slotCount_eq_blockWidth (group : SlotGroup) :
    slotCount group = blockWidth group := by
  match group with
  | [] => rfl
  | [member] =>
      cases found : TypeName.staticLength? member.info.type.toList with
      | none =>
          rw [slotCount_of_no_length found, blockWidth, found]
          rfl
      | some length =>
          rw [blockWidth, found, Option.getD_some]
          by_cases empty : length = 0
          · subst empty
            rw [slotCount, arrayLength?, found]
            rfl
          · rw [slotCount_of_staticLength? found (by omega)]
            omega
  | first :: second :: rest => rfl

/-- Slots of all groups together. -/
def slotTotal (groups : List SlotGroup) : Nat :=
  (groups.map blockWidth).sum

theorem slotTotal_cons (group : SlotGroup) (rest : List SlotGroup) :
    slotTotal (group :: rest) = slotCount group + slotTotal rest := by
  unfold slotTotal
  rw [List.map_cons, List.sum_cons, slotCount_eq_blockWidth]

theorem length_slotMembers_eq_slotTotal (groups : List SlotGroup) :
    (slotMembers groups).length = slotTotal groups := by
  induction groups with
  | nil => rfl
  | cons group rest inductionHypothesis =>
      rw [slotMembers_cons, List.length_append, List.length_replicate,
        inductionHypothesis, slotTotal_cons]

/-! ### The block of an index -/

/-- The index lies among the slots of a group behind these groups. -/
def InBlock (front : List SlotGroup) (group : SlotGroup) (index : Nat) : Prop :=
  slotTotal front ≤ index ∧ index < slotTotal front + blockWidth group

private theorem exists_inBlock {groups : List SlotGroup} {index : Nat}
    (below : index < slotTotal groups) :
    ∃ front group back, groups = front ++ group :: back ∧
      InBlock front group index := by
  induction groups generalizing index with
  | nil => exact absurd below (Nat.not_lt_zero index)
  | cons group rest inductionHypothesis =>
      rw [slotTotal_cons] at below
      by_cases own : index < slotCount group
      · refine ⟨[], group, rest, rfl, Nat.zero_le index, ?_⟩
        rw [slotCount_eq_blockWidth] at own
        show index < 0 + blockWidth group
        omega
      · have later : index - slotCount group < slotTotal rest := by omega
        obtain ⟨front, other, back, rfl, lower, upper⟩ :=
          inductionHypothesis later
        refine ⟨group :: front, other, back, rfl, ?_, ?_⟩
        · rw [slotTotal_cons]
          omega
        · rw [slotTotal_cons]
          omega

private theorem getElem?_slotMembers {front back : List SlotGroup}
    {group : SlotGroup}
    {index : Nat} (inBlock : InBlock front group index) :
    (slotMembers (front ++ group :: back))[index]? = some group := by
  obtain ⟨lower, upper⟩ := inBlock
  rw [← slotCount_eq_blockWidth] at upper
  have front_length := length_slotMembers_eq_slotTotal front
  have place : index - (slotMembers front).length < slotCount group := by omega
  rw [slotMembers_around, List.getElem?_append_right (by omega),
    List.getElem?_append_left (by simpa using place),
    List.getElem?_replicate, if_pos place]

/-! ### Slots under their keys -/

/-- Files a slot under its key: it replaces a slot that has the key, and goes to
the end if there is none. -/
def file (slots : List Slot) (slot : Slot) : List Slot :=
  if slots.any fun other => other.key == slot.key then
    slots.map fun other => if other.key == slot.key then slot else other
  else slots ++ [slot]

private theorem file_of_fresh {slots : List Slot} {slot : Slot}
    (fresh : slot.key ∉ slots.map fun other => other.key) :
    file slots slot = slots ++ [slot] := by
  have absent : ¬ (slots.any fun other => other.key == slot.key) = true := by
    intro present
    obtain ⟨other, found, same⟩ := List.any_eq_true.1 present
    apply fresh
    rw [← eq_of_beq same]
    exact List.mem_map_of_mem found
  rw [file, if_neg absent]

private theorem foldl_file {filed slots : List Slot}
    (distinct : ((filed ++ slots).map fun slot => slot.key).Nodup) :
    slots.foldl file filed = filed ++ slots := by
  induction slots generalizing filed with
  | nil => rw [List.foldl_nil, List.append_nil]
  | cons slot rest inductionHypothesis =>
      have fresh : slot.key ∉ filed.map fun other => other.key := by
        rw [List.map_append, List.nodup_append] at distinct
        intro found
        exact distinct.2.2 _ found _ List.mem_cons_self rfl
      have moved : filed ++ slot :: rest = (filed ++ [slot]) ++ rest := by
        rw [List.append_assoc, List.singleton_append]
      rw [moved] at distinct ⊢
      rw [List.foldl_cons, file_of_fresh fresh]
      exact inductionHypothesis distinct

end Storage

namespace Layout

open Storage

variable {layout : Layout} {groups : List SlotGroup}

private theorem slots_eq_map_range
    (numbered : layout.slots = slotsFrom 0 groups) :
    layout.slots = (List.range (slotTotal groups)).map fun index =>
      { key := slotKey index
        members := layout.membersUnder (slotKey index) } := by
  apply List.ext_getElem?
  intro index
  rw [List.getElem?_map]
  simp only [membersUnder_slotKey numbered]
  rw [numbered, getElem?_slotsFrom, Nat.zero_add]
  by_cases below : index < slotTotal groups
  · have present := below
    rw [← length_slotMembers_eq_slotTotal] at present
    rw [List.getElem?_eq_getElem present, List.getElem?_range below,
      Option.map_some, Option.map_some, List.getElem?_eq_getElem present,
      Option.getD_some]
  · have absent : (slotMembers groups).length ≤ index := by
      rw [length_slotMembers_eq_slotTotal]
      omega
    rw [List.getElem?_eq_none absent, List.getElem?_eq_none (by simpa using below)]
    rfl

/-- The groups stand in the slots of a layout, each in its block. -/
structure HoldsBlocks (groups : List SlotGroup) (layout : Layout) : Prop where
  keys : (layout.slots.map fun slot => slot.key) =
    (List.range (slotTotal groups)).map slotKey
  distinct : (layout.slots.map fun slot => slot.key).Nodup
  filed : layout.slots.foldl file [] = layout.slots
  inside : ∀ front group back, groups = front ++ group :: back →
    ∀ index : Nat, InBlock front group index →
      layout.membersAt index = .ok group
  covered : ∀ index < slotTotal groups, ∃ front group back,
    groups = front ++ group :: back ∧ InBlock front group index
  beyond : ∀ index : Nat, slotTotal groups ≤ index →
    layout.membersAt index = .ok []
  find : ∀ name, layout.find name =
    (List.range (slotTotal groups)).flatMap fun index =>
      ((layout.membersUnder (slotKey index)).filter fun member =>
        member.info.name.value.isText name).map fun member =>
          (slotKey index, member)

private theorem holdsBlocks_of_slots
    (numbered : layout.slots = slotsFrom 0 groups) :
    layout.HoldsBlocks groups := by
  have slots := slots_eq_map_range numbered
  have keys : (layout.slots.map fun slot => slot.key) =
      (List.range (slotTotal groups)).map slotKey := by
    rw [slots, List.map_map]
    rfl
  have distinct : (layout.slots.map fun slot => slot.key).Nodup := by
    rw [keys]
    exact List.nodup_range.map fun _ _ => slotKey_injective
  refine ⟨keys, distinct, foldl_file distinct, ?_, ?_, ?_, ?_⟩
  · rintro front group back rfl index inBlock
    rw [membersAt_natCast numbered, getElem?_slotMembers inBlock,
      Option.getD_some]
  · intro index below
    exact exists_inBlock below
  · intro index past
    rw [← length_slotMembers_eq_slotTotal] at past
    rw [membersAt_natCast numbered, List.getElem?_eq_none past,
      Option.getD_none]
  · intro name
    rw [find]
    nth_rewrite 1 [slots]
    rw [List.flatMap_map]

end Layout

namespace Storage

/-- Numbering groups stops at the first group whose length cannot be read, with
its fault.  If there is none, each group stands in a block of as many slots as it
is wide, the blocks follow one another from slot zero on, and there is nothing behind
them.  The keys are those of the slots in order, none is filed twice, and a search
by name lists its hits slot by slot. -/
theorem number_stops_or_holds_blocks (groups : List SlotGroup) :
    (∃ before group after fault, groups = before ++ group :: after ∧
        (∀ earlier ∈ before, lengthFault? earlier = none) ∧
        lengthFault? group = some fault ∧
        number groups = .error fault) ∨
      (∀ group ∈ groups, lengthFault? group = none) ∧
        ∃ layout, number groups = .ok layout ∧
          layout.HoldsBlocks groups := by
  cases found : groups.findSome? lengthFault? with
  | some fault =>
      obtain ⟨before, group, after, split, faulty, earlier⟩ :=
        List.findSome?_eq_some_iff.1 found
      refine Or.inl ⟨before, group, after, fault, split, earlier, faulty, ?_⟩
      rw [number, found]
  | none =>
      have readable := List.findSome?_eq_none_iff.1 found
      refine Or.inr ⟨readable, assignKeys groups, ?_, ?_⟩
      · exact (number_eq_ok_iff groups _).2 ⟨readable, rfl⟩
      · exact Layout.holdsBlocks_of_slots rfl

/-- An array of one word, with a length of more digits than can be read. -/
def longArray : Member :=
  .mk
    { name := .text "table"
      type := Compilation.wordsType Compilation.longDigits
      size := .int TypeName.slotSize }
    none

/-- A group with such an array cannot be numbered. -/
theorem number_refuses_long_length :
    (∀ group ∈ [[longArray]], group ≠ []) ∧
      number [[longArray]] = .error (.numberTooLong 4301) ∧
      ¬ ∃ layout, number [[longArray]] = .ok layout := by
  have long : Text.decimalLimit < Compilation.longDigits.length := by
    rw [Compilation.length_longDigits]
    omega
  have faulty : lengthFault? [longArray] =
      some (.numberTooLong Compilation.longDigits.length) :=
    TypeName.dimensionFault?_of_overlong
      (Compilation.normalize_wordsType Compilation.longDigits) rfl
      (fun _ found => Compilation.isDigit_of_mem_longDigits found) long
  have fails : number [[longArray]] = .error (.numberTooLong 4301) := by
    rw [Compilation.length_longDigits] at faulty
    rw [number, List.findSome?_cons, faulty]
    rfl
  refine ⟨by simp, fails, ?_⟩
  rintro ⟨layout, succeeds⟩
  rw [fails] at succeeds
  cases succeeds

end Storage

end ContractAtlas
