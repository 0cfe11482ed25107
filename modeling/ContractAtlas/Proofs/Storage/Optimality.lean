/-
Fewest slots.

A slot is closed only when the next member has no room in it, so no two
neighbouring slots could have been merged at their border.  The slots are one
way to cut the members into groups that fit, and no way has fewer groups.
-/

import ContractAtlas.Proofs.Storage.Greedy

namespace ContractAtlas.Storage

/-- The first member of the second group has no room behind the first group. -/
def Overflows (first second : SlotGroup) : Prop :=
  ∀ member ∈ second.head?,
    TypeName.slotSize < groupSize first + member.width

theorem Overflows.append {first second : SlotGroup}
    (overflows : Overflows first second) (filled : second ≠ [])
    (more : SlotGroup) : Overflows first (second ++ more) := by
  intro member isHead
  rw [List.head?_append_of_ne_nil _ filled] at isHead
  exact overflows member isHead

namespace Packing

/-- Each slot began with a member that had no room in the slot before it, and
there is an open slot once there are finished ones. -/
structure Tight (packing : Packing) : Prop where
  chained : packing.groups.IsChain Overflows
  opened : packing.current = [] → packing.finished = []

private theorem tight_empty : Tight empty where
  chained := .nil
  opened := fun _ => rfl

theorem Tight.place {packing : Packing} (tight : packing.Tight)
    (sound : packing.Sound) {member : Member} (valid : member.HasValidSize) :
    (packing.place [member]).Tight := by
  constructor
  · apply isChain_place _ tight.opened tight.chained (List.cons_ne_nil _ _)
    · intro overflow
      have bounded : groupSize [member] ≤ TypeName.slotSize := by
        rw [groupSize_singleton]
        exact valid.width_spec.2.2
      refine ⟨sound.current_ne_nil bounded overflow, ?_⟩
      intro first isFirst
      cases isFirst
      rw [← sound.used, ← groupSize_singleton member]
      exact overflow
    · intro first second more holds overflows
      exact overflows.append holds more
  · intro empty
    exact absurd empty (packing.current_place_ne_nil (List.cons_ne_nil _ _))

theorem Tight.placeEach {packing : Packing} (tight : packing.Tight)
    (sound : packing.Sound) {members : List Member}
    (valid : ∀ member ∈ members, member.HasValidSize) :
    (packing.placeEach (withoutOffsets members)).Tight := by
  induction members generalizing packing with
  | nil => exact tight
  | cons member rest inductionHypothesis =>
      obtain ⟨sized, restValid⟩ := List.forall_mem_cons.1 valid
      have next := tight.place sound
        ((Member.hasValidSize_withOffset 0 member).2 sized)
      exact inductionHypothesis next (sound.place (fits_single sized)) restValid

end Packing

/-- Members without parts are cut into slots in such a way that no cut into
consecutive groups of at most the slot size has fewer groups, and that no slot
has room for the first member of the next one. -/
theorem pack_takes_fewest_slots {members : List Member}
    (plain : ∀ member ∈ members, member.parts.getD [] = [])
    (valid : ∀ member ∈ members, member.HasValidSize) :
    ∃ groups, pack members = .ok groups ∧
      (∀ group ∈ groups,
        Slotted group ∧ groupSize group ≤ TypeName.slotSize) ∧
      List.Forall₂
        (fun placed member => placed = member.withOffset placed.info.offset)
        groups.flatten members ∧
      (∀ cut : List (List Member), cut.flatten = members →
        (∀ block ∈ cut, groupSize block ≤ TypeName.slotSize) →
        groups.length ≤ cut.length) ∧
      groups.IsChain Overflows := by
  refine ⟨_, pack_of_plain plain valid, ?slotted, ?same, ?fewest, ?chained⟩
  case slotted =>
    intro group found
    have fits : ∀ block ∈ apart (withoutOffsets members), Fits block := by
      intro block isBlock
      obtain ⟨_, moved, rfl⟩ := List.mem_map.1 isBlock
      obtain ⟨member, isMember, rfl⟩ := List.mem_map.1 moved
      exact fits_single (valid member isMember)
    obtain ⟨filled, fitsSlot⟩ := arrange_fits fits group found
    exact ⟨fitsSlot.slotted filled, fitsSlot.bounded⟩
  case same =>
    apply forall₂_of_withoutOffsets_eq
    rw [withoutOffsets_arrange, apart, ← List.flatMap_def,
      List.flatMap_singleton', withoutOffsets, withoutOffsets, List.map_map]
    apply List.map_congr_left
    intro member _
    exact Member.withOffset_withOffset 0 0 member
  case fewest =>
    rintro cut rfl bounded
    have fits : ∀ group ∈ cut.map withoutOffsets,
        groupSize group ≤ TypeName.slotSize := by
      intro group found
      obtain ⟨block, isBlock, rfl⟩ := List.mem_map.1 found
      rw [groupSize_eq_sum, map_width_withoutOffsets, ← groupSize_eq_sum]
      exact bounded block isBlock
    have fewer := length_arrange_apart_le fits
    have sameMembers : (cut.map withoutOffsets).flatten =
        withoutOffsets cut.flatten :=
      List.map_flatten.symm
    rw [sameMembers, List.length_map] at fewer
    exact fewer
  case chained =>
    exact (Packing.tight_empty.placeEach Packing.sound_empty valid).chained

/-- Members of 16, 17, 15 and 32 bytes: the second slot is filled exactly. -/
def exactFit : List Member :=
  [16, 17, 15, 32].map fun size =>
    .mk { name := .text "member", type := "bytes", size := .int size } none

theorem pack_exactFit_takes_three_slots :
    (∀ member ∈ exactFit, member.parts.getD [] = []) ∧
      (∀ member ∈ exactFit, member.HasValidSize) ∧
      ∃ groups, pack exactFit = .ok groups ∧
        groups.map groupSize = [16, 32, 32] ∧
        (∀ cut : List (List Member), cut.flatten = exactFit →
          (∀ block ∈ cut, groupSize block ≤ TypeName.slotSize) →
          3 ≤ cut.length) ∧
        groups.IsChain Overflows := by
  have plain : ∀ member ∈ exactFit, member.parts.getD [] = [] := by
    simp [exactFit, Member.parts]
  have valid : ∀ member ∈ exactFit, member.HasValidSize := by
    simp [exactFit, Member.HasValidSize, Member.info, Json.toInt?,
      TypeName.slotSize]
  obtain ⟨groups, packed, -, -, fewest, chained⟩ :=
    pack_takes_fewest_slots plain valid
  have evaluated : (pack exactFit).toOption.map (List.map groupSize) =
      some [16, 32, 32] := by
    decide +kernel
  rw [packed] at evaluated
  have sizes : groups.map groupSize = [16, 32, 32] := Option.some.inj evaluated
  have three : groups.length = 3 := by
    rw [← List.length_map groupSize, sizes]
    rfl
  rw [three] at fewest
  exact ⟨plain, valid, groups, packed, sizes, fewest, chained⟩

end ContractAtlas.Storage
