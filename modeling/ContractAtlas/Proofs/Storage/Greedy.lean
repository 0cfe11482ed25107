/-
Placing members one by one.

Members of a group that fits into a slot, placed one after the other, close at
most one slot: once a new slot is open, the rest of the group fits into it.  So
placing members as early as possible takes no more slots than any other way to
cut them into groups that fit, in the same order.
-/

import Mathlib.Algebra.GroupWithZero.Nat
import ContractAtlas.Proofs.Storage.Packing

namespace ContractAtlas.Storage

/-- Every member as a block of its own. -/
def apart (members : List Member) : List SlotGroup :=
  members.map fun member => [member]

theorem apart_append (front back : List Member) :
    apart (front ++ back) = apart front ++ apart back :=
  List.map_append

theorem groupSize_singleton (member : Member) :
    groupSize [member] = member.width :=
  Nat.add_zero member.width

theorem groupSize_eq_sum (group : SlotGroup) :
    groupSize group = (group.map Member.width).sum := by
  induction group with
  | nil => rfl
  | cons member rest inductionHypothesis =>
      rw [groupSize, List.map_cons, List.sum_cons, inductionHypothesis]

theorem map_width_withoutOffsets (members : List Member) :
    (withoutOffsets members).map Member.width = members.map Member.width := by
  rw [withoutOffsets, List.map_map]
  apply List.map_congr_left
  intro member _
  exact Member.width_withOffset 0 member

namespace Packing

def placeEach (packing : Packing) (members : List Member) : Packing :=
  (apart members).foldl place packing

theorem placeEach_append (packing : Packing) (front back : List Member) :
    packing.placeEach (front ++ back) =
      (packing.placeEach front).placeEach back := by
  unfold placeEach
  rw [apart_append, List.foldl_append]

private theorem length_close_le (packing : Packing) :
    packing.close.length ≤ packing.finished.length + 1 := by
  unfold close
  split
  · exact Nat.le_succ _
  · exact Nat.le_of_eq List.length_cons

private theorem length_groups_le (packing : Packing) :
    packing.groups.length ≤ packing.finished.length + 1 := by
  rw [groups, List.length_reverse]
  exact packing.length_close_le

private theorem place_of_room {packing : Packing} {block : SlotGroup}
    (room : packing.used + groupSize block ≤ TypeName.slotSize) :
    (packing.place block).finished = packing.finished ∧
      (packing.place block).used = packing.used + groupSize block := by
  rw [place, if_neg (Nat.not_lt.2 room)]
  exact ⟨rfl, rfl⟩

private theorem place_of_overflow {packing : Packing} {block : SlotGroup}
    (overflow : TypeName.slotSize < packing.used + groupSize block) :
    (packing.place block).finished = packing.close ∧
      (packing.place block).used = groupSize block := by
  rw [place, if_pos overflow]
  exact ⟨rfl, rfl⟩

private theorem finished_placeEach_of_room {packing : Packing}
    {members : List Member}
    (room : packing.used + groupSize members ≤ TypeName.slotSize) :
    (packing.placeEach members).finished = packing.finished := by
  induction members generalizing packing with
  | nil => rfl
  | cons member rest inductionHypothesis =>
      rw [groupSize] at room
      have own : packing.used + groupSize [member] ≤ TypeName.slotSize := by
        rw [groupSize_singleton]
        omega
      obtain ⟨sameFinished, used⟩ := place_of_room own
      rw [groupSize_singleton] at used
      have later : ((packing.place [member]).placeEach rest).finished =
          (packing.place [member]).finished := by
        apply inductionHypothesis
        omega
      exact later.trans sameFinished

private theorem length_finished_placeEach_le (packing : Packing)
    {members : List Member}
    (bounded : groupSize members ≤ TypeName.slotSize) :
    (packing.placeEach members).finished.length ≤
      packing.finished.length + 1 := by
  induction members generalizing packing with
  | nil => exact Nat.le_succ _
  | cons member rest inductionHypothesis =>
      rw [groupSize] at bounded
      show ((packing.place [member]).placeEach rest).finished.length ≤ _
      by_cases overflow :
          TypeName.slotSize < packing.used + groupSize [member]
      · -- The slot that opens here has room for the rest of the group.
        obtain ⟨closed, used⟩ := place_of_overflow overflow
        rw [groupSize_singleton] at used
        rw [finished_placeEach_of_room (by omega), closed]
        exact packing.length_close_le
      · obtain ⟨sameFinished, -⟩ := place_of_room (Nat.le_of_not_lt overflow)
        have later := inductionHypothesis (packing.place [member]) (by omega)
        rw [sameFinished] at later
        exact later

private theorem length_finished_placeEach_flatten_le (packing : Packing)
    {groups : List (List Member)}
    (bounded : ∀ group ∈ groups, groupSize group ≤ TypeName.slotSize) :
    (packing.placeEach groups.flatten).finished.length ≤
      packing.finished.length + groups.length := by
  induction groups generalizing packing with
  | nil => exact Nat.le_refl _
  | cons group rest inductionHypothesis =>
      obtain ⟨fits, restFits⟩ := List.forall_mem_cons.1 bounded
      rw [List.flatten_cons, placeEach_append, List.length_cons]
      have first := packing.length_finished_placeEach_le fits
      have later := inductionHypothesis (packing.placeEach group) restFits
      omega

end Packing

/-- However members are cut into groups that fit, placing them one by one takes
no more slots than there are groups. -/
theorem length_arrange_apart_le {groups : List (List Member)}
    (bounded : ∀ group ∈ groups, groupSize group ≤ TypeName.slotSize) :
    (arrange (apart groups.flatten)).length ≤ groups.length := by
  cases groups with
  | nil => exact Nat.le_refl 0
  | cons group rest =>
      obtain ⟨fits, restFits⟩ := List.forall_mem_cons.1 bounded
      have opened : (Packing.empty.placeEach group).finished = [] := by
        apply Packing.finished_placeEach_of_room
        rw [Packing.empty, Nat.zero_add]
        exact fits
      have later := (Packing.empty.placeEach group)
        |>.length_finished_placeEach_flatten_le restFits
      rw [opened, ← Packing.placeEach_append, ← List.flatten_cons,
        List.length_nil, Nat.zero_add] at later
      have counted :=
        (Packing.empty.placeEach (group :: rest).flatten).length_groups_le
      rw [List.length_cons]
      show (Packing.empty.placeEach (group :: rest).flatten).groups.length ≤ _
      omega

/-- Members without parts are packed one by one. -/
theorem pack_of_plain {members : List Member}
    (plain : ∀ member ∈ members, member.parts.getD [] = [])
    (valid : ∀ member ∈ members, member.HasValidSize) :
    pack members = .ok (arrange (apart (withoutOffsets members))) := by
  have blocks : blocksOfAll members = .ok (apart (withoutOffsets members)) := by
    induction members with
    | nil => rfl
    | cons member rest inductionHypothesis =>
        obtain ⟨noParts, restPlain⟩ := List.forall_mem_cons.1 plain
        obtain ⟨sized, restValid⟩ := List.forall_mem_cons.1 valid
        obtain ⟨bytes, width⟩ := member.hasValidSize_iff.1 sized
        have own : blocksOf member = .ok [[member.withOffset 0]] := by
          obtain ⟨info, parts⟩ := member
          cases parts with
          | none => simp only [blocksOf, width]
          | some parts =>
              have empty : parts = [] := noParts
              subst empty
              simp only [blocksOf, width]
        rw [blocksOfAll, own, inductionHypothesis restPlain restValid]
        rfl
  rw [pack, blocks]

end ContractAtlas.Storage
