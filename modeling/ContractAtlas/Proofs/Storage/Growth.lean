/-
Layouts grow at their end.

Placing further blocks leaves all slots but the open one as they are, and the
open one can only get further members.  A member that is an array fills its
slot, so the group of an array that stands alone is never joined and keeps its
number of slots.  Numbering the groups therefore keeps every slot in place.
-/

import ContractAtlas.Proofs.Solidity.ArrayWidth
import ContractAtlas.Proofs.Storage.Numbering
import ContractAtlas.Proofs.Storage.Packing

namespace ContractAtlas

/-- An array fills its slot. -/
def Member.ArrayFillsSlot (member : Member) : Prop :=
  TypeName.isArray member.info.type.toList = true →
    member.width = TypeName.slotSize

namespace Storage

/-- The second list of groups starts with the groups of the first one; only
the last of these may have got further members. -/
inductive Grows : List SlotGroup → List SlotGroup → Prop
  | nil (whole : List SlotGroup) : Grows [] whole
  | last (group more : SlotGroup) (rest : List SlotGroup)
      (nonempty : group ≠ []) : Grows [group] ((group ++ more) :: rest)
  | cons (group : SlotGroup) {part whole : List SlotGroup}
      (grows : Grows part whole) : Grows (group :: part) (group :: whole)

namespace Grows

private theorem of_prefix (part rest : List SlotGroup) : Grows part
    (part ++ rest) := by
  induction part with
  | nil => exact .nil rest
  | cons group part inductionHypothesis => exact .cons group inductionHypothesis

theorem refl (groups : List SlotGroup) : Grows groups groups := by
  have same := of_prefix groups []
  rw [List.append_nil] at same
  exact same

theorem append_left (front : List SlotGroup) {part whole : List SlotGroup}
    (grows : Grows part whole) : Grows (front ++ part) (front ++ whole) := by
  induction front with
  | nil => exact grows
  | cons group front inductionHypothesis => exact .cons group inductionHypothesis

theorem trans {first second third : List SlotGroup}
    (one : Grows first second) (two : Grows second third) :
    Grows first third := by
  induction one generalizing third with
  | nil whole => exact .nil third
  | last group more rest nonempty =>
      cases two with
      | last _ further others _ =>
          rw [List.append_assoc]
          exact .last group (more ++ further) others nonempty
      | @cons _ _ whole _ => exact .last group more whole nonempty
  | @cons group part whole grows inductionHypothesis =>
      cases two with
      | last _ further others nonempty =>
          cases grows
          exact .last group further others nonempty
      | cons _ later => exact .cons group (inductionHypothesis later)

theorem length_le {part whole : List SlotGroup} (grows : Grows part whole) :
    part.length ≤ whole.length := by
  induction grows with
  | nil whole => exact Nat.zero_le _
  | last group more rest nonempty =>
      simp only [List.length_cons, List.length_nil]
      omega
  | cons group grows inductionHypothesis =>
      simp only [List.length_cons]
      omega

/-- At every place of the first list the groups of both lists agree up to
further members, and before its last place they are equal. -/
theorem getElem? {part whole : List SlotGroup} (grows : Grows part whole)
    {index : Nat} (inside : index < part.length) :
    ∃ before after, part[index]? = some before ∧ whole[index]? = some after ∧
      before <+: after ∧ (index + 1 < part.length → before = after) := by
  induction grows generalizing index with
  | nil whole => exact absurd inside (Nat.not_lt_zero index)
  | last group more rest nonempty =>
      have first : index = 0 := by
        simp only [List.length_cons, List.length_nil] at inside
        omega
      subst first
      refine ⟨group, group ++ more, rfl, rfl, List.prefix_append group more, ?_⟩
      intro beyond
      exact absurd beyond (Nat.lt_irrefl 1)
  | @cons group part whole grows inductionHypothesis =>
      cases index with
      | zero => exact ⟨group, group, rfl, rfl, List.prefix_refl group, fun _ => rfl⟩
      | succ index =>
          rw [List.length_cons] at inside
          obtain ⟨before, after, inPart, inWhole, extended, same⟩ :=
            inductionHypothesis (Nat.lt_of_succ_lt_succ inside)
          refine ⟨before, after, ?_, ?_, extended, ?_⟩
          · rw [List.getElem?_cons_succ, inPart]
          · rw [List.getElem?_cons_succ, inWhole]
          · intro notLast
            rw [List.length_cons] at notLast
            exact same (Nat.lt_of_succ_lt_succ notLast)

end Grows

/-! ### Placing further blocks -/

private theorem Packing.grows_place (packing : Packing) {block : SlotGroup}
    (nonempty : block ≠ []) :
    Grows packing.groups (packing.place block).groups := by
  by_cases overflow : TypeName.slotSize < packing.used + groupSize block
  · rw [Packing.groups_place_of_overflow nonempty overflow]
    exact Grows.of_prefix packing.groups [block]
  · rw [Packing.groups_place_of_room nonempty overflow]
    by_cases empty : packing.current = []
    · rw [Packing.groups_of_unopened empty]
      exact Grows.of_prefix _ _
    · rw [Packing.groups_of_opened empty]
      exact (Grows.last _ _ [] empty).append_left _

theorem Packing.grows_placeAll (packing : Packing) {blocks : List SlotGroup}
    (nonempty : ∀ block ∈ blocks, block ≠ []) :
    Grows packing.groups (blocks.foldl Packing.place packing).groups := by
  induction blocks generalizing packing with
  | nil => exact Grows.refl _
  | cons block rest inductionHypothesis =>
      refine (packing.grows_place (nonempty block List.mem_cons_self)).trans ?_
      refine inductionHypothesis (packing.place block) ?_
      intro other later
      exact nonempty other (List.mem_cons_of_mem block later)

theorem blocksOfAll_append (first second : List Member) :
    blocksOfAll (first ++ second) =
      match blocksOfAll first with
      | .error fault => .error fault
      | .ok blocks =>
          match blocksOfAll second with
          | .error fault => .error fault
          | .ok more => .ok (blocks ++ more) := by
  induction first with
  | nil =>
      simp only [List.nil_append, blocksOfAll]
      cases blocksOfAll second <;> rfl
  | cons member rest inductionHypothesis =>
      rw [List.cons_append, blocksOfAll, blocksOfAll, inductionHypothesis]
      cases blocksOf member with
      | error fault => rfl
      | ok blocks =>
          cases blocksOfAll rest with
          | error fault => rfl
          | ok others =>
              cases blocksOfAll second with
              | error fault => rfl
              | ok more => simp only [List.append_assoc]

/-- If members can be packed, so can any front part of them, and its slots
are those of the whole up to further members in its last slot. -/
theorem grows_pack_append {members more : List Member}
    {whole : List SlotGroup} (packed : pack (members ++ more) = .ok whole) :
    ∃ part, pack members = .ok part ∧ Grows part whole := by
  have front := packedAs_blocksOfAll members
  have back := packedAs_blocksOfAll more
  unfold pack at packed ⊢
  rw [blocksOfAll_append] at packed
  generalize blocksOfAll members = first at front packed ⊢
  generalize blocksOfAll more = second at back packed
  cases front with
  | stopped => cases packed
  | placed blocks =>
      cases back with
      | stopped => cases packed
      | placed others _ fits =>
          refine ⟨arrange blocks, rfl, ?_⟩
          rw [← Except.ok.inj packed, arrange, arrange, List.foldl_append]
          exact Packing.grows_placeAll _ fun block found => (fits block found).1

/-! ### Arrays are not joined -/

theorem groupSize_pos {group : SlotGroup}
    (sized : ∀ member ∈ group, member.HasValidSize) (nonempty : group ≠ []) :
    0 < groupSize group := by
  cases group with
  | nil => exact absurd rfl nonempty
  | cons member rest =>
      have positive := (sized member List.mem_cons_self).width_spec.2.1
      rw [groupSize]
      omega

private theorem isArray_eq_false_of_joined {member : Member} {more : SlotGroup}
    (fits : Fits (member :: more)) (joined : more ≠ [])
    (fills : member.ArrayFillsSlot) :
    TypeName.isArray member.info.type.toList = false := by
  rw [Bool.eq_false_iff]
  intro array
  have full := fills array
  have further : 0 < groupSize more :=
    groupSize_pos
      (fun other found => fits.sized other (List.mem_cons_of_mem member found))
      joined
  have bounded := fits.bounded
  rw [groupSize, full] at bounded
  omega

/-- A group that got further members is no array that stands alone. -/
theorem no_array_of_joined {group more : SlotGroup}
    (fits : Fits (group ++ more)) (joined : more ≠ [])
    (fills : ∀ member ∈ group, member.ArrayFillsSlot) :
    arrayLength? group = none ∧ lengthFault? group = none := by
  match group with
  | [] => exact ⟨rfl, rfl⟩
  | _ :: _ :: _ => exact ⟨rfl, rfl⟩
  | [member] =>
      have plain :=
        isArray_eq_false_of_joined fits joined (fills member List.mem_cons_self)
      constructor
      · rw [arrayLength?]
        cases found : TypeName.staticLength? member.info.type.toList with
        | none => rfl
        | some length =>
            rw [TypeName.isArray_of_staticLength? found] at plain
            cases plain
      · rw [lengthFault?]
        cases found : TypeName.dimensionFault? member.info.type.toList with
        | none => rfl
        | some fault =>
            rw [TypeName.isArray_of_dimensionFault? found] at plain
            cases plain

private theorem arrayLength?_append_eq_none {group more : SlotGroup}
    (nonempty : group ≠ []) (joined : more ≠ []) :
    arrayLength? (group ++ more) = none := by
  match group, more with
  | [], _ => exact absurd rfl nonempty
  | _ :: _, [] => exact absurd rfl joined
  | [_], _ :: _ => rfl
  | _ :: _ :: _, _ :: _ => rfl

section Numbering

variable {part whole : List SlotGroup}
  (grows : Grows part whole) (fits : ∀ group ∈ whole, Fits group)
  (fills : ∀ group ∈ whole, ∀ member ∈ group, member.ArrayFillsSlot)

include grows fits fills

/-- What grows group by group also grows slot by slot. -/
theorem grows_slotMembers : Grows (slotMembers part) (slotMembers whole) := by
  induction grows with
  | nil whole => exact .nil _
  | last group more rest nonempty =>
      rw [slotMembers_cons, slotMembers_cons]
      by_cases same : more = []
      · rw [same, List.append_nil]
        exact (Grows.nil _).append_left _
      · have alone := no_array_of_joined (fits _ List.mem_cons_self) same
          fun member found =>
            fills _ List.mem_cons_self member (List.mem_append_left more found)
        rw [slotCount, slotCount, alone.1,
          arrayLength?_append_eq_none nonempty same]
        exact .last group more (slotMembers rest) nonempty
  | @cons group part whole grows inductionHypothesis =>
      rw [slotMembers_cons, slotMembers_cons]
      refine (inductionHypothesis ?_ ?_).append_left _
      · intro other found
        exact fits other (List.mem_cons_of_mem group found)
      · intro other found
        exact fills other (List.mem_cons_of_mem group found)

private theorem lengthFault?_eq_none_of_grows
    (readable : ∀ group ∈ whole, lengthFault? group = none) :
    ∀ group ∈ part, lengthFault? group = none := by
  induction grows with
  | nil whole =>
      intro group impossible
      cases impossible
  | last group more rest nonempty =>
      intro other single
      rw [List.mem_singleton.1 single]
      by_cases same : more = []
      · have own := readable _ List.mem_cons_self
        rw [same, List.append_nil] at own
        exact own
      · exact (no_array_of_joined (fits _ List.mem_cons_self) same
          fun member found =>
            fills _ List.mem_cons_self member
              (List.mem_append_left more found)).2
  | @cons group part whole grows inductionHypothesis =>
      intro other found
      rcases List.mem_cons.1 found with rfl | later
      · exact readable other List.mem_cons_self
      · refine inductionHypothesis ?_ ?_ ?_ other later
        · intro third inside
          exact fits third (List.mem_cons_of_mem group inside)
        · intro third inside
          exact fills third (List.mem_cons_of_mem group inside)
        · intro third inside
          exact readable third (List.mem_cons_of_mem group inside)

end Numbering

theorem number_eq_ok_iff (groups : List SlotGroup) (layout : Layout) :
    number groups = .ok layout ↔
      (∀ group ∈ groups, lengthFault? group = none) ∧
        layout = assignKeys groups := by
  unfold number
  cases found : groups.findSome? lengthFault? with
  | none =>
      have readable := List.findSome?_eq_none_iff.1 found
      constructor
      · intro same
        exact ⟨readable, (Except.ok.inj same).symm⟩
      · rintro ⟨_, rfl⟩
        rfl
  | some fault =>
      constructor
      · intro impossible
        cases impossible
      · rintro ⟨readable, _⟩
        rw [List.findSome?_eq_none_iff.2 readable] at found
        cases found

theorem arrayFillsSlot_of_placed {groups : List SlotGroup}
    {leaves : List Member}
    (same : withoutOffsets groups.flatten = withoutOffsets leaves)
    (fills : ∀ leaf ∈ leaves, leaf.ArrayFillsSlot) :
    ∀ group ∈ groups, ∀ member ∈ group, member.ArrayFillsSlot := by
  intro group found member inside
  obtain ⟨leaf, isLeaf, moved⟩ :=
    exists_withOffset_of_mem same (List.mem_flatten.2 ⟨group, found, inside⟩)
  rw [moved, Member.ArrayFillsSlot, Member.type_withOffset,
    Member.width_withOffset]
  exact fills leaf isLeaf

/-- If members can be laid out, so can any front part of them, and every slot
of the front part keeps its place and its members; only the last of these
slots may get further ones. -/
theorem grows_layOut_append {members more : List Member} {whole : Layout}
    (fills : ∀ leaf ∈ Member.leavesOfAll (members ++ more), leaf.ArrayFillsSlot)
    (succeeds : layOut (members ++ more) = .ok whole) :
    ∃ part groups all, layOut members = .ok part ∧
      part.slots = slotsFrom 0 groups ∧ whole.slots = slotsFrom 0 all ∧
      Grows (slotMembers groups) (slotMembers all) := by
  have described := packedAs_pack (members ++ more)
  unfold layOut at succeeds ⊢
  cases packed : pack (members ++ more) with
  | error fault =>
      rw [packed] at succeeds
      cases succeeds
  | ok all =>
      rw [packed] at succeeds described
      obtain ⟨readable, numbered⟩ := (number_eq_ok_iff all whole).1 succeeds
      cases described with
      | placed _ _ fits same =>
          have placedFills := arrayFillsSlot_of_placed same fills
          have allFit : ∀ group ∈ all, Fits group :=
            fun group found => (fits group found).2
          obtain ⟨groups, packedFront, grows⟩ := grows_pack_append packed
          have readableFront :=
            lengthFault?_eq_none_of_grows grows allFit placedFills readable
          refine ⟨assignKeys groups, groups, all, ?_, rfl, ?_,
            grows_slotMembers grows allFit placedFills⟩
          · rw [packedFront]
            exact (number_eq_ok_iff groups _).2 ⟨readableFront, rfl⟩
          · rw [numbered]
            rfl

/-- Layouts whose slots grow, as they are seen through indices. -/
theorem membersAt_of_grows {part whole : Layout}
    {groups all : List SlotGroup} (partSlots : part.slots = slotsFrom 0 groups)
    (wholeSlots : whole.slots = slotsFrom 0 all)
    (grows : Grows (slotMembers groups) (slotMembers all)) :
    part.slots.length ≤ whole.slots.length ∧
      ∀ index : Nat, index < part.slots.length →
        ∃ before after, part.membersAt index = .ok before ∧
          whole.membersAt index = .ok after ∧ before <+: after ∧
          (index + 1 < part.slots.length → before = after) := by
  have partLength : part.slots.length = (slotMembers groups).length := by
    rw [partSlots, length_slotsFrom]
  have wholeLength : whole.slots.length = (slotMembers all).length := by
    rw [wholeSlots, length_slotsFrom]
  rw [partLength, wholeLength]
  refine ⟨grows.length_le, ?_⟩
  intro index inside
  obtain ⟨before, after, inPart, inWhole, extended, same⟩ :=
    grows.getElem? inside
  refine ⟨before, after, ?_, ?_, extended, same⟩
  · rw [Layout.membersAt_natCast partSlots, inPart, Option.getD_some]
  · rw [Layout.membersAt_natCast wholeSlots, inWhole, Option.getD_some]

end Storage

end ContractAtlas
