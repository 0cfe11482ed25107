/-
The slots of a fixed-size array.

A leaf as wide as a slot is never joined with another one, so the group of an
array holds the array alone.  Numbering gives that group one slot for each
element: the slots of a layout are those of the leaves before the array, then
the slots of the array, then those of the leaves behind it.
-/

import Mathlib.Algebra.Order.BigOperators.Ring.List
import ContractAtlas.Proofs.Solidity.ArrayLength
import ContractAtlas.Proofs.Storage.Inheritance

namespace ContractAtlas

namespace Storage

/-! ### Full groups -/

theorem Fits.eq_singleton {group : SlotGroup} (fits : Fits group)
    {member : Member} (found : member ∈ group)
    (full : member.width = TypeName.slotSize) :
    group = [member.withOffset 0] := by
  obtain ⟨front, back, rfl⟩ := List.append_of_mem found
  have bounded := fits.bounded
  rw [groupSize_append, groupSize, full] at bounded
  have frontEmpty : front = [] := by
    by_cases given : front = []
    · exact given
    · have positive := groupSize_pos
        (fun other inside => fits.sized other (List.mem_append_left _ inside))
        given
      omega
  have backEmpty : back = [] := by
    by_cases given : back = []
    · exact given
    · have positive := groupSize_pos
        (fun other inside =>
          fits.sized other
            (List.mem_append_right _ (List.mem_cons_of_mem member inside)))
        given
      omega
  rw [frontEmpty, backEmpty, List.nil_append] at fits ⊢
  have start : member.info.offset = 0 := fits.contiguous.1
  rw [← start, Member.withOffset_offset]

/-- A full leaf splits the groups: the leaves before it lie in the groups before
its own, and the leaves behind it in the groups behind. -/
theorem split_at_full {groups : List SlotGroup}
    (fits : ∀ group ∈ groups, Fits group) {first second : List Member}
    {leaf : Member} (full : leaf.width = TypeName.slotSize)
    (placed :
      withoutOffsets groups.flatten = first ++ leaf.withOffset 0 :: second) :
    ∃ front back, groups = front ++ [leaf.withOffset 0] :: back ∧
      withoutOffsets front.flatten = first ∧
      withoutOffsets back.flatten = second := by
  induction groups generalizing first with
  | nil =>
      have impossible := congrArg List.length placed
      simp [withoutOffsets] at impossible
  | cons group rest inductionHypothesis =>
      have restFits : ∀ other ∈ rest, Fits other := by
        intro other later
        exact fits other (List.mem_cons_of_mem group later)
      rw [List.flatten_cons, withoutOffsets_append] at placed
      rcases List.append_eq_append_iff.1 placed with
        ⟨later, inFirst, inRest⟩ | ⟨common, inGroup, inTail⟩
      · obtain ⟨front, back, rfl, beforeLeaf, behindLeaf⟩ :=
          inductionHypothesis restFits inRest
        refine ⟨group :: front, back, rfl, ?_, behindLeaf⟩
        rw [List.flatten_cons, withoutOffsets_append, beforeLeaf, inFirst]
      · cases common with
        | nil =>
            rw [List.append_nil] at inGroup
            have inRest : withoutOffsets rest.flatten =
                [] ++ leaf.withOffset 0 :: second := inTail.symm
            obtain ⟨front, back, rfl, beforeLeaf, behindLeaf⟩ :=
              inductionHypothesis restFits inRest
            refine ⟨group :: front, back, rfl, ?_, behindLeaf⟩
            rw [List.flatten_cons, withoutOffsets_append, beforeLeaf, inGroup,
              List.append_nil]
        | cons head more =>
            obtain ⟨sameLeaf, behind⟩ := List.cons.inj inTail
            rw [← sameLeaf] at inGroup
            -- The leaf lies in this group, which therefore holds it alone.
            have inside : leaf.withOffset 0 ∈ withoutOffsets group := by
              rw [inGroup]
              exact List.mem_append_right first List.mem_cons_self
            obtain ⟨member, inMembers, moved⟩ := List.mem_map.1 inside
            have wide : member.width = TypeName.slotSize := by
              rw [← Member.width_withOffset 0 member, moved,
                Member.width_withOffset, full]
            have alone : group = [leaf.withOffset 0] := by
              rw [(fits group List.mem_cons_self).eq_singleton inMembers wide,
                moved]
            rw [alone] at inGroup
            have lengths := congrArg List.length inGroup
            simp only [withoutOffsets, List.length_map, List.length_append,
              List.length_cons, List.length_nil] at lengths
            have firstEmpty : first = [] := List.length_eq_zero_iff.1 (by omega)
            have moreEmpty : more = [] := List.length_eq_zero_iff.1 (by omega)
            refine ⟨[], rest, ?_, ?_, ?_⟩
            · rw [alone, List.nil_append]
            · rw [firstEmpty]
              rfl
            · rw [behind, moreEmpty]
              rfl

/-! ### Slots of groups -/

private theorem map_members_slotsFrom (first : Nat) (groups : List SlotGroup) :
    (slotsFrom first groups).map (fun slot => slot.members) =
      slotMembers groups := by
  induction groups generalizing first with
  | nil => rfl
  | cons group rest inductionHypothesis =>
      rw [slotsFrom, slotMembers_cons, List.map_append, inductionHypothesis,
        List.map_map]
      have copies : (List.range (slotCount group)).map
          ((fun slot : Slot => slot.members) ∘ fun i =>
            { key := slotKey (first + i), members := group }) =
            List.replicate (slotCount group) group := by
        simp [Function.comp_def]
      rw [copies]

theorem slotMembers_append (front back : List SlotGroup) :
    slotMembers (front ++ back) = slotMembers front ++ slotMembers back :=
  List.flatMap_append

theorem slotCount_of_staticLength? {member : Member} {length : Nat}
    (found : TypeName.staticLength? member.info.type.toList = some length)
    (positive : 1 ≤ length) : slotCount [member] = length := by
  rw [slotCount, arrayLength?, found]
  cases length with
  | zero => omega
  | succ count => rfl

theorem slotCount_of_no_length {member : Member}
    (missing : TypeName.staticLength? member.info.type.toList = none) :
    slotCount [member] = 1 := by
  rw [slotCount, arrayLength?, missing, Option.getD_none]

/-- A leaf of some members lies alone and at the start in so many consecutive
slots of their layout.  The leaves before it make up the slots before these, and
the leaves behind it the slots behind. -/
def Occupies (members : List Member) (layout : Layout) (before : List Member)
    (leaf : Member) (after : List Member) (count : Nat) : Prop :=
  ∃ front back, pack members = .ok (front ++ [leaf.withOffset 0] :: back) ∧
    withoutOffsets front.flatten = withoutOffsets before ∧
    withoutOffsets back.flatten = withoutOffsets after ∧
    layout.slots.map (fun slot => slot.members) =
      slotMembers front ++
        (List.replicate count [leaf.withOffset 0] ++ slotMembers back) ∧
    ∀ index : Nat, index < count →
      layout.membersAt (((slotMembers front).length + index : Nat) : Int) =
        .ok [leaf.withOffset 0]

theorem slots_of_layOut {members : List Member} {layout : Layout}
    {groups : List SlotGroup} (succeeds : layOut members = .ok layout)
    (packed : pack members = .ok groups) :
    layout.slots = slotsFrom 0 groups := by
  rw [layOut, packed] at succeeds
  obtain ⟨-, numbered⟩ := (number_eq_ok_iff groups layout).1 succeeds
  rw [numbered]
  rfl

theorem slotMembers_around (front : List SlotGroup) (group : SlotGroup)
    (back : List SlotGroup) :
    slotMembers (front ++ group :: back) =
      slotMembers front ++
        (List.replicate (slotCount group) group ++ slotMembers back) := by
  rw [slotMembers_append, slotMembers_cons]

/-- A full leaf occupies the slots that its group is numbered with. -/
theorem occupies_of_full {members : List Member} {layout : Layout}
    (succeeds : layOut members = .ok layout) {before after : List Member}
    {leaf : Member}
    (leaves : Member.leavesOfAll members = before ++ leaf :: after)
    (full : leaf.width = TypeName.slotSize) :
    Occupies members layout before leaf after
      (slotCount [leaf.withOffset 0]) := by
  have described := packedAs_pack members
  cases packed : pack members with
  | error fault =>
      rw [layOut, packed] at succeeds
      cases succeeds
  | ok groups =>
      rw [packed] at described
      have slots := slots_of_layOut succeeds packed
      cases described with
      | placed _ _ fits same =>
          have allFit : ∀ group ∈ groups, Fits group :=
            fun group found => (fits group found).2
          rw [leaves, withoutOffsets_append] at same
          obtain ⟨front, back, rfl, inFront, inBack⟩ :=
            split_at_full allFit full same
          refine ⟨front, back, packed, inFront, inBack, ?_, ?_⟩
          · rw [slots, map_members_slotsFrom, slotMembers_around]
          · intro index below
            rw [Layout.membersAt_natCast slots, slotMembers_around,
              List.getElem?_append_right (Nat.le_add_right _ _),
              Nat.add_sub_cancel_left,
              List.getElem?_append_left (by simpa using below),
              List.getElem?_replicate, if_pos below, Option.getD_some]

/-- No leaf occupies another number of slots. -/
theorem eq_slotCount_of_occupies {members : List Member} {layout : Layout}
    (succeeds : layOut members = .ok layout) {before after : List Member}
    {leaf : Member} {count : Nat}
    (occupies : Occupies members layout before leaf after count) :
    count = slotCount [leaf.withOffset 0] := by
  obtain ⟨front, back, packed, -, -, slots, -⟩ := occupies
  rw [slots_of_layOut succeeds packed, map_members_slotsFrom,
    slotMembers_around] at slots
  have lengths := congrArg List.length slots
  simp only [List.length_append, List.length_replicate] at lengths
  omega

end Storage

namespace Compilation

/-- The layout of a contract gives a fixed-size array as many slots as the
product of its dimensions says, unless the text of its element type starts as a
mapping does: such an array never has more than one slot of its own. -/
theorem layout_array_slots (compilation : Compilation) (flatten : Bool)
    (contract : Node) (layout : Layout)
    (succeeds : compilation.layout flatten contract = .ok layout)
    (members : List Member) (constants : List Constant)
    (collected :
      compilation.collect flatten contract = .ok (members, constants))
    (before after : List Member) (leaf : Member)
    (leaves : Member.leavesOfAll members = before ++ leaf :: after)
    (element : List Char) (dimensions : List Nat)
    (typed :
      TypeName.normalize leaf.info.type.toList =
        TypeName.arrayText element dimensions)
    (given : dimensions ≠ []) (positive : ∀ length ∈ dimensions, 1 ≤ length)
    (dynamic : ¬ TypeName.EndsStatic element) :
    (TypeName.isMapping element = false →
        Storage.Occupies members layout before leaf after dimensions.prod) ∧
      (TypeName.isMapping element = true → ∀ count,
        Storage.Occupies members layout before leaf after count →
          count = 1) := by
  obtain ⟨others, numbered, gathered, laidOut, sameSlots⟩ :=
    layout_eq_ok_iff.1 succeeds
  have sameMembers : others = members :=
    (Prod.mk.inj (Except.ok.inj (gathered.symm.trans collected))).1
  rw [sameMembers] at laidOut
  have ofNumbered : ∀ count,
      Storage.Occupies members layout before leaf after count ↔
        Storage.Occupies members numbered before leaf after count := by
    intro count
    simp only [Storage.Occupies, Layout.membersAt, Layout.membersUnder, sameSlots]
  simp only [ofNumbered]
  constructor
  · intro plain
    have counted :=
      TypeName.staticLength?_of_arrayText typed plain dynamic given positive
    have inside : leaf ∈ Member.leavesOfAll members := by
      rw [leaves]
      exact List.mem_append_right before List.mem_cons_self
    have full := arrayFillsSlot_of_collectFrom collected leaf inside
      (TypeName.isArray_of_staticLength? counted)
    have atLeastOne : 1 ≤ dimensions.prod :=
      CanonicallyOrderedAdd.list_prod_pos.2 positive
    have count : Storage.slotCount [leaf.withOffset 0] = dimensions.prod := by
      apply Storage.slotCount_of_staticLength? _ atLeastOne
      rw [Member.type_withOffset]
      exact counted
    rw [← count]
    exact Storage.occupies_of_full laidOut leaves full
  · intro mapping count occupies
    rw [Storage.eq_slotCount_of_occupies laidOut occupies]
    apply Storage.slotCount_of_no_length
    rw [Member.type_withOffset]
    exact TypeName.staticLength?_of_mapping typed mapping

/-! ### An array in front of a word -/

/-- `contract C` with a variable `table` of some type and `uint256 n`. -/
def tableSample (type : String) : Sample :=
  .contract 1 "C" [1]
    [.stateVariable 2 "table" type, .stateVariable 3 "n" "uint256"]

def tableUnits (type : String) : List (String × Sample) :=
  [("src/C.sol", .unit 0 (.str "src/C.sol") [tableSample type])]

def withTable (type : String) : Compilation :=
  Sample.compilation (tableUnits type)

def tableContract (type : String) : Node :=
  (tableSample type).node (some 0) "nodes" true

def tableMember (type : String) : Member :=
  .mk ((withTable type).memberInfo (stateVariable 2 1 "table" type) type
    TypeName.slotSize none) none

def wordMember (type : String) : Member :=
  .mk ((withTable type).memberInfo (stateVariable 3 1 "n" "uint256") "uint256"
    TypeName.slotSize none) none

private theorem isStruct_word : TypeName.isStruct "uint256".toList = false := by
  rw [TypeName.isStruct, TypeName.normalize_word]
  rfl

theorem scalarWidth_word (type : String) :
    (withTable type).scalarWidth (stateVariable 3 1 "n" "uint256") "uint256" =
      .ok TypeName.slotSize :=
  scalarWidth_of_normal TypeName.normalize_word rfl rfl rfl rfl

theorem collect_withTable {type : String}
    (typed : variableType (stateVariable 2 1 "table" type) = .ok type)
    (plain : TypeName.isStruct type.toList = false)
    (sized :
      (withTable type).scalarWidth (stateVariable 2 1 "table" type) type =
        .ok TypeName.slotSize) :
    (withTable type).collect true (tableContract type) =
      .ok ([tableMember type, wordMember type], []) := by
  have stored : ∀ position name type,
      ¬ (stateVariable position 1 name type).isStorageFree = true := by
    intro position name type free
    cases free
  have first : (withTable type).membersOf true none []
      [stateVariable 2 1 "table" type] = .ok [tableMember type] :=
    membersOf_of_collected (.scalar typed plain sized (.nil none []))
  have second : (withTable type).membersOf true none []
      [stateVariable 3 1 "n" "uint256"] = .ok [wordMember type] :=
    membersOf_of_collected
      (.scalar rfl isStruct_word (scalarWidth_word type) (.nil none []))
  have ordered : (withTable type).stateVariables (tableContract type) =
      [stateVariable 2 1 "table" type, stateVariable 3 1 "n" "uint256"] := rfl
  rw [collect, ordered, collectFrom, if_neg (stored _ _ _), first,
    collectFrom, if_neg (stored _ _ _), second]
  rfl

private theorem exists_layout_withTable {type : String}
    (collected :
      (withTable type).collect true (tableContract type) =
        .ok ([tableMember type, wordMember type], []))
    (readable :
      Storage.lengthFault? [(tableMember type).withOffset 0] = none ∧
        Storage.lengthFault? [(wordMember type).withOffset 0] = none) :
    ∃ layout, (withTable type).layout true (tableContract type) = .ok layout ∧
      layout.slots =
        Storage.slotsFrom 0
          [[(tableMember type).withOffset 0],
            [(wordMember type).withOffset 0]] := by
  have packed : Storage.pack [tableMember type, wordMember type] =
      .ok [[(tableMember type).withOffset 0],
        [(wordMember type).withOffset 0]] := rfl
  have laidOut : Storage.layOut [tableMember type, wordMember type] =
      .ok (Storage.assignKeys
        [[(tableMember type).withOffset 0],
          [(wordMember type).withOffset 0]]) := by
    rw [Storage.layOut, packed]
    apply (Storage.number_eq_ok_iff _ _).2
    refine ⟨?_, rfl⟩
    intro group member
    simp only [List.mem_cons, List.not_mem_nil, or_false] at member
    rcases member with rfl | rfl
    · exact readable.1
    · exact readable.2
  exact ⟨_, layout_eq_ok_iff.2 ⟨_, _, collected, laidOut, rfl⟩, rfl⟩

def gridType : String := "uint256[2][3]"

private theorem read_grid :
    (Reading.read (Sample.file (tableUnits gridType))).outcome =
      .ok (withTable gridType) :=
  (rfl)

private theorem collect_grid :
    (withTable gridType).collect true (tableContract gridType) =
      .ok ([tableMember gridType, wordMember gridType], []) := by
  have normal : TypeName.normalize gridType.toList = gridType.toList :=
    TypeName.normalize_of_stable rfl rfl
  have plain : TypeName.isStruct gridType.toList = false := by
    rw [TypeName.isStruct, normal]
    rfl
  exact collect_withTable rfl plain
    (scalarWidth_of_normal normal rfl rfl rfl rfl)

theorem layout_grid_occupies_six_slots :
    (Reading.read (Sample.file (tableUnits gridType))).outcome =
        .ok (withTable gridType) ∧
      ∃ layout, (withTable gridType).layout true (tableContract gridType) =
          .ok layout ∧
        Storage.Occupies [tableMember gridType, wordMember gridType] layout []
          (tableMember gridType) [wordMember gridType] 6 := by
  obtain ⟨layout, succeeds, -⟩ :=
    exists_layout_withTable collect_grid (by decide +kernel)
  have normal : TypeName.normalize (tableMember gridType).info.type.toList =
      TypeName.arrayText "uint256".toList [2, 3] := by
    decide +kernel
  have slots := layout_array_slots _ true _ layout succeeds _ _ collect_grid []
    [wordMember gridType] (tableMember gridType) rfl "uint256".toList [2, 3]
    normal (by decide) (by decide)
    (TypeName.not_endsStatic (by decide) (by decide))
  exact ⟨read_grid, layout, succeeds, slots.1 (by decide)⟩

def mappingsType : String := "mapping(address => uint256)[3]"

private theorem read_mappings :
    (Reading.read (Sample.file (tableUnits mappingsType))).outcome =
      .ok (withTable mappingsType) :=
  (rfl)

private theorem collect_mappings :
    (withTable mappingsType).collect true (tableContract mappingsType) =
      .ok ([tableMember mappingsType, wordMember mappingsType], []) := by
  have normal :
      TypeName.normalize mappingsType.toList = mappingsType.toList :=
    TypeName.normalize_of_stable rfl rfl
  have plain : TypeName.isStruct mappingsType.toList = false := by
    rw [TypeName.isStruct, normal]
    rfl
  exact collect_withTable rfl plain
    (scalarWidth_of_normal normal rfl rfl rfl rfl)

/-- An array of three mappings has one slot, not three: the next variable follows
right behind it. -/
theorem layout_mappings_take_one_slot :
    (Reading.read (Sample.file (tableUnits mappingsType))).outcome =
        .ok (withTable mappingsType) ∧
      ∃ layout, (withTable mappingsType).layout true
          (tableContract mappingsType) = .ok layout ∧
        TypeName.normalize (tableMember mappingsType).info.type.toList =
          TypeName.arrayText "mapping(address => uint256)".toList [3] ∧
        layout.slots.map (fun slot => slot.members) =
          [[(tableMember mappingsType).withOffset 0],
            [(wordMember mappingsType).withOffset 0]] ∧
        ¬ Storage.Occupies [tableMember mappingsType, wordMember mappingsType]
          layout [] (tableMember mappingsType) [wordMember mappingsType] 3 := by
  obtain ⟨layout, succeeds, slots⟩ :=
    exists_layout_withTable collect_mappings (by decide +kernel)
  have members : layout.slots.map (fun slot => slot.members) =
      [[(tableMember mappingsType).withOffset 0],
        [(wordMember mappingsType).withOffset 0]] := by
    have single :
        Storage.slotCount [(tableMember mappingsType).withOffset 0] = 1 ∧
          Storage.slotCount [(wordMember mappingsType).withOffset 0] = 1 := by
      decide +kernel
    rw [slots, Storage.map_members_slotsFrom, Storage.slotMembers_cons,
      Storage.slotMembers_cons, single.1, single.2]
    rfl
  refine ⟨read_mappings, layout, succeeds, by decide +kernel,
    members, ?_⟩
  rintro ⟨front, back, -, -, -, three, -⟩
  have lengths := congrArg List.length (members.symm.trans three)
  simp only [List.length_append, List.length_replicate, List.length_cons,
    List.length_nil] at lengths
  omega

end Compilation

end ContractAtlas
