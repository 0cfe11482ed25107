/-
Flattened and nested storage.

A struct variable is either flattened into its fields or kept as one member with
the fields as parts.  Both ways fail alike, and opening the parts of the nested
members gives the flattened ones.  The nested groups, less the structs without
fields, cut the flattened members into groups that fit, so the flattened layout
takes no more slots.
-/

import Mathlib.Algebra.Order.BigOperators.Group.List
import ContractAtlas.Proofs.Storage.Blocks
import ContractAtlas.Proofs.Storage.Greedy

namespace ContractAtlas

namespace Member

def isPlain (member : Member) : Bool :=
  member.parts.isNone

mutual

/-- The member itself if it has no list of parts, otherwise its parts, opened in
turn. -/
def opened : Member → List Member
  | mk info none => [mk info none]
  | mk _ (some parts) => openedAll parts

def openedAll : List Member → List Member
  | [] => []
  | member :: rest => opened member ++ openedAll rest

end

theorem openedAll_append (front back : List Member) :
    openedAll (front ++ back) = openedAll front ++ openedAll back := by
  induction front with
  | nil => simp only [List.nil_append, openedAll]
  | cons member rest inductionHypothesis =>
      simp only [List.cons_append, openedAll, inductionHypothesis,
        List.append_assoc]

-- A leaf is either plain or a struct without fields, which opens to nothing.
mutual

private theorem filter_isPlain_leaves :
    (member : Member) → member.leaves.filter isPlain = member.opened
  | mk info none => by simp [leaves, opened, isPlain, parts]
  | mk info (some []) => by simp [leaves, opened, openedAll, isPlain, parts]
  | mk info (some (part :: rest)) => by
      rw [leaves, opened]
      exact filter_isPlain_leavesOfAll (part :: rest)

private theorem filter_isPlain_leavesOfAll :
    (members : List Member) →
      (leavesOfAll members).filter isPlain = openedAll members
  | [] => by rw [leavesOfAll, openedAll, List.filter_nil]
  | member :: rest => by
      rw [leavesOfAll, openedAll, List.filter_append,
        filter_isPlain_leaves member, filter_isPlain_leavesOfAll rest]

end

private theorem isPlain_of_mem_openedAll {members : List Member}
    {member : Member}
    (found : member ∈ openedAll members) : member.isPlain = true := by
  rw [← filter_isPlain_leavesOfAll] at found
  exact (List.mem_filter.1 found).2

private theorem mem_leavesOfAll_of_mem_openedAll {members : List Member}
    {member : Member} (found : member ∈ openedAll members) :
    member ∈ leavesOfAll members := by
  rw [← filter_isPlain_leavesOfAll] at found
  exact (List.mem_filter.1 found).1

private theorem leaves_of_isPlain {member : Member}
    (plain : member.isPlain = true) :
    member.leaves = [member] := by
  obtain ⟨info, parts⟩ := member
  cases parts with
  | none =>
      rw [leaves]
      intro info part rest impossible
      cases impossible
  | some parts => cases plain

private theorem leavesOfAll_openedAll (members : List Member) :
    leavesOfAll (openedAll members) = openedAll members := by
  have plain : ∀ member ∈ openedAll members, member.isPlain = true :=
    fun _ found => isPlain_of_mem_openedAll found
  generalize openedAll members = flat at plain
  induction flat with
  | nil => rw [leavesOfAll]
  | cons member rest inductionHypothesis =>
      obtain ⟨own, restPlain⟩ := List.forall_mem_cons.1 plain
      rw [leavesOfAll, leaves_of_isPlain own, inductionHypothesis restPlain,
        List.singleton_append]

@[simp]
theorem isPlain_withOffset (offset : Nat) (member : Member) :
    (member.withOffset offset).isPlain = member.isPlain := by
  cases member
  rfl

end Member

namespace Storage

/-! ### Slots beyond one for each group -/

/-- Slots that a member takes beyond the first when it stands alone. -/
def surplus (member : Member) : Nat :=
  slotCount [member] - 1

private theorem slotCount_pos (group : SlotGroup) : 1 ≤ slotCount group := by
  unfold slotCount arrayLength?
  split
  · split
    · exact Nat.le_refl 1
    · rename_i notZero
      cases found : TypeName.staticLength? _ with
      | none => exact Nat.le_refl 1
      | some length =>
          cases length with
          | zero => exact absurd found notZero
          | succ count => exact Nat.succ_le_succ (Nat.zero_le count)
  · exact Nat.le_refl 1

private theorem surplus_of_not_array {member : Member}
    (plain : ¬ TypeName.isArray member.info.type.toList = true) :
    surplus member = 0 := by
  have missing : TypeName.staticLength? member.info.type.toList = none := by
    cases found : TypeName.staticLength? member.info.type.toList with
    | none => rfl
    | some length => exact absurd (TypeName.isArray_of_staticLength? found) plain
  rw [surplus, slotCount_of_no_length missing]

private theorem slotCount_eq_add_surplus {group : SlotGroup}
    (nonempty : group ≠ [])
    (fits : Fits group)
    (fills : ∀ member ∈ group, member.ArrayFillsSlot) :
    slotCount group = 1 + (group.map surplus).sum := by
  match group with
  | [] => exact absurd rfl nonempty
  | [member] =>
      have positive := slotCount_pos [member]
      simp only [List.map_cons, List.map_nil, List.sum_cons, List.sum_nil,
        surplus]
      omega
  | first :: second :: rest =>
      -- No member of a shared slot fills it, so none is an array.
      have noSurplus : ∀ count ∈ (first :: second :: rest).map surplus,
          count = 0 := by
        intro count counted
        obtain ⟨member, found, rfl⟩ := List.mem_map.1 counted
        apply surplus_of_not_array
        intro array
        have alone := congrArg List.length
          (fits.eq_singleton found (fills member found array))
        simp at alone
      have shared : slotCount (first :: second :: rest) = 1 := rfl
      have none := List.sum_eq_zero noSurplus
      omega

private theorem slotTotal_eq_add_surplus {groups : List SlotGroup}
    (fits : ∀ group ∈ groups, group ≠ [] ∧ Fits group)
    (fills : ∀ group ∈ groups, ∀ member ∈ group, member.ArrayFillsSlot) :
    slotTotal groups =
      groups.length + (groups.flatten.map surplus).sum := by
  induction groups with
  | nil => rfl
  | cons group rest inductionHypothesis =>
      obtain ⟨⟨nonempty, groupFits⟩, restFits⟩ := List.forall_mem_cons.1 fits
      obtain ⟨groupFills, restFills⟩ := List.forall_mem_cons.1 fills
      have own := slotCount_eq_add_surplus nonempty groupFits groupFills
      have later := inductionHypothesis restFits restFills
      rw [slotTotal_cons, List.flatten_cons, List.map_append, List.sum_append,
        List.length_cons]
      omega

private theorem map_surplus_withoutOffsets (members : List Member) :
    (withoutOffsets members).map surplus = members.map surplus := by
  rw [withoutOffsets, List.map_map]
  apply List.map_congr_left
  intro member _
  simp only [Function.comp_apply, surplus, slotCount, arrayLength?,
    Member.type_withOffset]

/-- The plain members of a group as they were before packing. -/
def plainMembers (group : SlotGroup) : List Member :=
  (withoutOffsets group).filter Member.isPlain

private theorem groupSize_plainMembers_le (group : SlotGroup) :
    groupSize (plainMembers group) ≤ groupSize group := by
  rw [groupSize_eq_sum, groupSize_eq_sum, ← map_width_withoutOffsets group]
  apply List.Sublist.sum_le_sum
  · exact (List.filter_sublist).map Member.width
  · intro width _
    exact Nat.zero_le width

private theorem flatten_plainMembers {groups : List SlotGroup}
    {members : List Member}
    (same :
      withoutOffsets groups.flatten =
        withoutOffsets (Member.leavesOfAll members)) :
    (groups.map plainMembers).flatten =
      withoutOffsets (Member.openedAll members) := by
  have gathered : (groups.map plainMembers).flatten =
      (withoutOffsets groups.flatten).filter Member.isPlain := by
    simp only [withoutOffsets, List.map_flatten, List.filter_flatten,
      List.map_map]
    rfl
  have unmoved : Member.isPlain ∘ Member.withOffset 0 = Member.isPlain := by
    funext member
    exact Member.isPlain_withOffset 0 member
  rw [gathered, same, withoutOffsets, List.filter_map, unmoved,
    Member.filter_isPlain_leavesOfAll]
  rfl

/-- A layout has one slot for each group, and the surplus of the leaves. -/
theorem length_slots_of_layOut {members : List Member} {layout : Layout}
    {groups : List SlotGroup}
    (fills : ∀ leaf ∈ Member.leavesOfAll members, leaf.ArrayFillsSlot)
    (laidOut : layOut members = .ok layout)
    (packed : pack members = .ok groups) :
    layout.slots.length =
      groups.length + ((Member.leavesOfAll members).map surplus).sum := by
  have described := packedAs_pack members
  rw [packed] at described
  cases described with
  | placed _ _ fits same =>
      rw [slots_of_layOut laidOut packed, length_slotsFrom,
        length_slotMembers_eq_slotTotal,
        slotTotal_eq_add_surplus fits (arrayFillsSlot_of_placed same fills),
        ← map_surplus_withoutOffsets groups.flatten, same,
        map_surplus_withoutOffsets]

private theorem length_pack_openedAll_le {members : List Member}
    {groups : List SlotGroup}
    (valid : ∀ leaf ∈ Member.leavesOfAll members, leaf.HasValidSize)
    (packed : pack members = .ok groups) :
    ∃ fewer, pack (Member.openedAll members) = .ok fewer ∧
      fewer.length ≤ groups.length := by
  have described := packedAs_pack members
  rw [packed] at described
  cases described with
  | placed _ _ fits same =>
      have bounded : ∀ group ∈ groups.map plainMembers,
          groupSize group ≤ TypeName.slotSize := by
        intro group found
        obtain ⟨whole, inGroups, rfl⟩ := List.mem_map.1 found
        exact (groupSize_plainMembers_le whole).trans
          (fits whole inGroups).2.bounded
      have fewer := length_arrange_apart_le bounded
      rw [flatten_plainMembers same, List.length_map] at fewer
      refine ⟨_, pack_of_plain ?_ ?_, fewer⟩
      · intro member found
        rw [Option.isNone_iff_eq_none.1 (Member.isPlain_of_mem_openedAll found)]
        rfl
      · intro member found
        exact valid member (Member.mem_leavesOfAll_of_mem_openedAll found)

/-- Opened members take no more slots than members with parts. -/
theorem length_slots_openedAll_le {members : List Member}
    {nested flat : Layout}
    (valid : ∀ leaf ∈ Member.leavesOfAll members, leaf.HasValidSize)
    (fills : ∀ leaf ∈ Member.leavesOfAll members, leaf.ArrayFillsSlot)
    (laidOut : layOut members = .ok nested)
    (laidOutOpened : layOut (Member.openedAll members) = .ok flat) :
    flat.slots.length ≤ nested.slots.length := by
  obtain ⟨groups, packed⟩ := exists_pack valid
  obtain ⟨fewer, openedPacked, fewerGroups⟩ :=
    length_pack_openedAll_le valid packed
  have openedFills : ∀ leaf ∈
      Member.leavesOfAll (Member.openedAll members), leaf.ArrayFillsSlot := by
    rw [Member.leavesOfAll_openedAll]
    intro member found
    exact fills member (Member.mem_leavesOfAll_of_mem_openedAll found)
  have lessSurplus : ((Member.openedAll members).map surplus).sum ≤
      ((Member.leavesOfAll members).map surplus).sum := by
    rw [← Member.filter_isPlain_leavesOfAll]
    apply List.Sublist.sum_le_sum
    · exact List.filter_sublist.map surplus
    · intro count _
      exact Nat.zero_le count
  rw [length_slots_of_layOut fills laidOut packed,
    length_slots_of_layOut openedFills laidOutOpened openedPacked,
    Member.leavesOfAll_openedAll]
  omega

end Storage

namespace Compilation

variable {compilation : Compilation}

/-! ### Collecting both ways -/

private theorem Collected.openedAll {parent : Option Provenance}
    {path : List compilation.Place} {declarations : List Node}
    {members : List Member}
    (collected :
      Collected compilation false parent path declarations members) :
    Collected compilation true parent path declarations
      (Member.openedAll members) := by
  induction collected with
  | nil parent path =>
      rw [Member.openedAll]
      exact .nil parent path
  | scalar typed plain sized later laterHypothesis =>
      rw [Member.openedAll, Member.opened]
      exact .scalar typed plain sized laterHypothesis
  | struct typed isStruct defined closed inside later insideHypothesis
      laterHypothesis =>
      rw [if_neg Bool.false_ne_true, Member.openedAll_append, Member.openedAll,
        Member.opened, Member.openedAll, List.append_nil]
      exact .struct typed isStruct defined closed insideHypothesis
        laterHypothesis

private theorem Gathered.openedAll {declarations : List Node}
    {members : List Member}
    {constants : List Constant}
    (gathered : Gathered compilation false declarations members constants) :
    Gathered compilation true declarations (Member.openedAll members)
      constants := by
  induction gathered with
  | nil =>
      rw [Member.openedAll]
      exact .nil
  | free isFree described later laterHypothesis =>
      exact .free isFree described laterHypothesis
  | stored isStored collected later laterHypothesis =>
      rw [Member.openedAll_append]
      exact .stored isStored collected.openedAll laterHypothesis

private theorem layout_eq_error_iff_nested {contract : Node} {fault : Fault} :
    compilation.layout true contract = .error fault ↔
      compilation.layout false contract = .error fault := by
  have sameFault : compilation.collect true contract = .error fault ↔
      compilation.collect false contract = .error fault :=
    collectFrom_eq_error_iff.trans collectFrom_eq_error_iff.symm
  have sameSuccess :
      (∃ result, compilation.collect true contract = .ok result) ↔
        ∃ result, compilation.collect false contract = .ok result :=
    exists_collectFrom_iff.trans exists_collectFrom_iff.symm
  rw [layout_eq_error_iff, layout_eq_error_iff, sameFault, sameSuccess]

/-- Laying out a contract with flattened structs and with nested ones fails with
the same fault, or succeeds both ways.  Then the nested members open to the
flattened ones, the constants are the same, and the flattened layout has no more
slots than the nested one. -/
theorem layout_flattened_agrees_with_nested (compilation : Compilation)
    (contract : Node) :
    (∃ fault, compilation.layout true contract = .error fault ∧
        compilation.layout false contract = .error fault) ∨
      ∃ flat nested flatMembers nestedMembers,
        compilation.layout true contract = .ok flat ∧
        compilation.layout false contract = .ok nested ∧
        compilation.collect true contract =
          .ok (flatMembers, flat.constants) ∧
        compilation.collect false contract =
          .ok (nestedMembers, nested.constants) ∧
        Member.openedAll nestedMembers = flatMembers ∧
        flat.constants = nested.constants ∧
        flat.slots.length ≤ nested.slots.length := by
  cases laidOut : compilation.layout false contract with
  | error fault =>
      exact Or.inl ⟨fault, layout_eq_error_iff_nested.2 laidOut, rfl⟩
  | ok nested =>
      cases laidOutFlat : compilation.layout true contract with
      | error fault =>
          rw [layout_eq_error_iff_nested.1 laidOutFlat] at laidOut
          cases laidOut
      | ok flat =>
          obtain ⟨members, numbered, collected, nestedSlots, sameNested⟩ :=
            layout_eq_ok_iff.1 laidOut
          obtain ⟨others, flatNumbered, collectedFlat, flatSlots, sameFlat⟩ :=
            layout_eq_ok_iff.1 laidOutFlat
          have gathered := gathered_of_collectFrom collected
          have opened : compilation.collect true contract =
              .ok (Member.openedAll members, nested.constants) :=
            collectFrom_of_gathered gathered.openedAll
          obtain ⟨sameMembers, sameConstants⟩ :=
            Prod.mk.inj (Except.ok.inj (opened.symm.trans collectedFlat))
          rw [← sameMembers] at flatSlots
          have fewer := Storage.length_slots_openedAll_le
            (gathered.forall_leaves holdsOfLeaves_hasValidSize)
            (gathered.forall_leaves holdsOfLeaves_arrayFillsSlot)
            nestedSlots flatSlots
          rw [sameNested, sameFlat] at fewer
          exact Or.inr ⟨flat, nested, others, members, rfl, rfl, collectedFlat,
            collected, sameMembers, sameConstants.symm, fewer⟩

end Compilation

end ContractAtlas
