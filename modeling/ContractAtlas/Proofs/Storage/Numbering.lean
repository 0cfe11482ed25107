/-
Numbered slots.

The slots of groups are numbered from zero without gaps, so the members under
the key of an index are those of the slot at that place, and there is nothing
under the key of an index past the last slot.
-/

import ContractAtlas.Proofs.Storage.SlotKey
import ContractAtlas.Storage.Layout

namespace ContractAtlas

namespace Storage

/-- The members of each slot, slot by slot. -/
def slotMembers (groups : List SlotGroup) : List SlotGroup :=
  groups.flatMap fun group => List.replicate (slotCount group) group

theorem slotMembers_cons (group : SlotGroup) (rest : List SlotGroup) :
    slotMembers (group :: rest) =
      List.replicate (slotCount group) group ++ slotMembers rest :=
  List.flatMap_cons

theorem getElem?_slotsFrom (first : Nat) (groups : List SlotGroup)
    (index : Nat) :
    (slotsFrom first groups)[index]? =
      (slotMembers groups)[index]?.map fun members =>
        { key := slotKey (first + index), members := members } := by
  induction groups generalizing first index with
  | nil => rfl
  | cons group rest inductionHypothesis =>
      rw [slotsFrom, slotMembers_cons]
      by_cases inside : index < slotCount group
      · rw [List.getElem?_append_left (by simpa using inside),
          List.getElem?_append_left (by simpa using inside)]
        simp only [List.getElem?_map, List.getElem?_range inside,
          List.getElem?_replicate, if_pos inside, Option.map_some]
      · have beyond : slotCount group ≤ index := Nat.le_of_not_lt inside
        rw [List.getElem?_append_right (by simpa using beyond),
          List.getElem?_append_right (by simpa using beyond)]
        simp only [List.length_map, List.length_range, List.length_replicate]
        rw [inductionHypothesis, Nat.add_assoc, Nat.add_sub_cancel' beyond]

theorem length_slotsFrom (first : Nat) (groups : List SlotGroup) :
    (slotsFrom first groups).length = (slotMembers groups).length := by
  induction groups generalizing first with
  | nil => rfl
  | cons group rest inductionHypothesis =>
      rw [slotsFrom, slotMembers_cons, List.length_append, List.length_append,
        inductionHypothesis, List.length_map, List.length_range,
        List.length_replicate]

end Storage

namespace Layout

open Storage

theorem membersUnder_slotKey {layout : Layout} {groups : List SlotGroup}
    (numbered : layout.slots = slotsFrom 0 groups) (index : Nat) :
    layout.membersUnder (slotKey index) =
      (slotMembers groups)[index]?.getD [] := by
  -- Keys are different, so a search by key stops at the slot of the index.
  have keyed : ∀ place slot, layout.slots[place]? = some slot →
      (slot.key == slotKey index) = decide (place = index) := by
    intro place slot found
    rw [numbered, getElem?_slotsFrom, Nat.zero_add] at found
    obtain ⟨members, _, rfl⟩ := Option.map_eq_some_iff.1 found
    by_cases same : place = index
    · rw [same, beq_self_eq_true, decide_eq_true rfl]
    · rw [decide_eq_false same, beq_eq_false_iff_ne]
      exact fun equal => same (slotKey_injective equal)
  unfold membersUnder
  cases found : (slotMembers groups)[index]? with
  | some members =>
      have atIndex : layout.slots[index]? =
          some { key := slotKey index, members := members } := by
        rw [numbered, getElem?_slotsFrom, found, Nat.zero_add]
        rfl
      have first :
          (layout.slots.find? fun slot => slot.key == slotKey index) =
            some { key := slotKey index, members := members } := by
        rw [List.find?_eq_some_iff_getElem]
        obtain ⟨inside, equal⟩ := List.getElem?_eq_some_iff.1 atIndex
        refine ⟨beq_self_eq_true _, index, inside, equal, ?_⟩
        intro earlier before
        rw [keyed earlier _ (List.getElem?_eq_getElem _),
          decide_eq_false (Nat.ne_of_lt before)]
        rfl
      rw [first]
      rfl
  | none =>
      have nowhere :
          (layout.slots.find? fun slot => slot.key == slotKey index) = none := by
        rw [List.find?_eq_none]
        intro slot member
        obtain ⟨place, inside, rfl⟩ := List.getElem_of_mem member
        rw [keyed place _ (List.getElem?_eq_getElem _)]
        have past := List.getElem?_eq_none_iff.1 found
        rw [numbered, length_slotsFrom] at inside
        simp only [decide_eq_true_eq]
        omega
      rw [nowhere]
      rfl

theorem membersAt_natCast {layout : Layout} {groups : List SlotGroup}
    (numbered : layout.slots = slotsFrom 0 groups) (index : Nat) :
    layout.membersAt index = .ok ((slotMembers groups)[index]?.getD []) := by
  rw [← membersUnder_slotKey numbered index]
  rfl

end Layout

end ContractAtlas
