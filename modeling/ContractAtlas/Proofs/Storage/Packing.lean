/-
Packed slots.

What a packing places is a block that starts at offset zero.  Joining it to
the open slot moves all its members by the bytes in use, so slots stay
without gaps, and nothing but offsets changes on the way.  Packing therefore
either stops at the first member without parts that has no valid size, or
places all members without parts in their order.
-/

import Mathlib.Data.List.Chain
import Mathlib.Data.List.Forall2
import ContractAtlas.Storage.Packing

namespace ContractAtlas

namespace Member

/-- The size is an integer from one to the slot size. -/
def HasValidSize (member : Member) : Prop :=
  ∃ bytes : Int, member.info.size.toInt? = some bytes ∧
    1 ≤ bytes ∧ bytes ≤ TypeName.slotSize

private theorem width?_eq_some_iff (member : Member) (bytes : Nat) :
    member.width? = some bytes ↔
      member.info.size.toInt? = some (bytes : Int) ∧
        1 ≤ bytes ∧ bytes ≤ TypeName.slotSize := by
  unfold width?
  cases read : member.info.size.toInt? with
  | none => simp
  | some value =>
      cases value with
      | negSucc below => simp
      | ofNat count =>
          by_cases inside : 1 ≤ count ∧ count ≤ TypeName.slotSize
          · simp only [if_pos inside, Option.some.injEq]
            constructor
            · rintro rfl
              exact ⟨rfl, inside⟩
            · rintro ⟨same, _⟩
              exact Int.ofNat.inj same
          · simp only [if_neg inside, Option.some.injEq]
            constructor
            · intro impossible
              cases impossible
            · rintro ⟨same, bounds⟩
              cases Int.ofNat.inj same
              exact absurd bounds inside

theorem hasValidSize_iff (member : Member) :
    member.HasValidSize ↔ ∃ bytes, member.width? = some bytes := by
  constructor
  · rintro ⟨bytes, read, lower, upper⟩
    refine ⟨bytes.toNat, ?_⟩
    rw [width?_eq_some_iff, Int.toNat_of_nonneg (by omega)]
    exact ⟨read, by omega, by omega⟩
  · rintro ⟨bytes, found⟩
    obtain ⟨read, lower, upper⟩ := (member.width?_eq_some_iff bytes).1 found
    exact ⟨bytes, read, by omega, by omega⟩

/-- The width of a member with a valid size is that size. -/
theorem HasValidSize.width_spec {member : Member}
    (valid : member.HasValidSize) :
    member.info.size.toInt? = some (member.width : Int) ∧
      1 ≤ member.width ∧ member.width ≤ TypeName.slotSize := by
  obtain ⟨bytes, found⟩ := member.hasValidSize_iff.1 valid
  have same : member.width = bytes := by
    rw [width, found, Option.getD_some]
  rw [same]
  exact (member.width?_eq_some_iff bytes).1 found

@[simp]
theorem offset_withOffset (offset : Nat) (member : Member) :
    (member.withOffset offset).info.offset = offset := by
  cases member
  rfl

@[simp]
theorem size_withOffset (offset : Nat) (member : Member) :
    (member.withOffset offset).info.size = member.info.size := by
  cases member
  rfl

@[simp]
theorem type_withOffset (offset : Nat) (member : Member) :
    (member.withOffset offset).info.type = member.info.type := by
  cases member
  rfl

@[simp]
theorem width_withOffset (offset : Nat) (member : Member) :
    (member.withOffset offset).width = member.width := by
  simp only [width, width?, size_withOffset]

@[simp]
theorem hasValidSize_withOffset (offset : Nat) (member : Member) :
    (member.withOffset offset).HasValidSize ↔ member.HasValidSize := by
  simp only [HasValidSize, size_withOffset]

@[simp]
theorem withOffset_withOffset (first second : Nat) (member : Member) :
    (member.withOffset first).withOffset second = member.withOffset second := by
  cases member
  rfl

@[simp]
theorem withOffset_offset (member : Member) :
    member.withOffset member.info.offset = member := by
  cases member
  rfl

@[simp]
theorem width_shift (distance : Nat) (member : Member) :
    (member.shift distance).width = member.width :=
  width_withOffset _ _

end Member

namespace Storage

/-! ### Groups without gaps -/

/-- The members stand one after the other from an offset on. -/
def Contiguous : Nat → SlotGroup → Prop
  | _, [] => True
  | start, member :: rest =>
      member.info.offset = start ∧ Contiguous (start + member.width) rest

theorem groupSize_append (left right : SlotGroup) :
    groupSize (left ++ right) = groupSize left + groupSize right := by
  induction left with
  | nil => simp only [List.nil_append, groupSize, Nat.zero_add]
  | cons member rest inductionHypothesis =>
      simp only [List.cons_append, groupSize, inductionHypothesis,
        Nat.add_assoc]

private theorem groupSize_map_shift (distance : Nat) (group : SlotGroup) :
    groupSize (group.map (Member.shift distance)) = groupSize group := by
  induction group with
  | nil => rfl
  | cons member rest inductionHypothesis =>
      simp only [List.map_cons, groupSize, Member.width_shift,
        inductionHypothesis]

theorem Contiguous.append {start : Nat} {left right : SlotGroup}
    (first : Contiguous start left)
    (second : Contiguous (start + groupSize left) right) :
    Contiguous start (left ++ right) := by
  induction left generalizing start with
  | nil => exact second
  | cons member rest inductionHypothesis =>
      refine ⟨first.1, inductionHypothesis first.2 ?_⟩
      rw [groupSize, ← Nat.add_assoc] at second
      exact second

private theorem Contiguous.map_shift {start : Nat} {group : SlotGroup}
    (contiguous : Contiguous start group) (distance : Nat) :
    Contiguous (start + distance) (group.map (Member.shift distance)) := by
  induction group generalizing start with
  | nil => trivial
  | cons member rest inductionHypothesis =>
      refine ⟨?_, ?_⟩
      · rw [Member.shift, Member.offset_withOffset, contiguous.1]
      · have moved := inductionHypothesis contiguous.2
        rw [Nat.add_right_comm] at moved
        rw [Member.width_shift]
        exact moved

/-- A group that fills a slot from its start on, as far as it goes. -/
structure Fits (group : SlotGroup) : Prop where
  sized : ∀ member ∈ group, member.HasValidSize
  contiguous : Contiguous 0 group
  bounded : groupSize group ≤ TypeName.slotSize

theorem fits_nil : Fits [] where
  sized := by
    intro member impossible
    cases impossible
  contiguous := trivial
  bounded := Nat.zero_le _

theorem fits_single {member : Member} (valid : member.HasValidSize) :
    Fits [member.withOffset 0] where
  sized := by
    intro other found
    rw [List.mem_singleton.1 found, Member.hasValidSize_withOffset]
    exact valid
  contiguous := ⟨Member.offset_withOffset 0 member, trivial⟩
  bounded := by
    simp only [groupSize, Member.width_withOffset, Nat.add_zero]
    exact valid.width_spec.2.2

theorem Fits.join {current block : SlotGroup} (first : Fits current)
    (second : Fits block)
    (room : groupSize current + groupSize block ≤ TypeName.slotSize) :
    Fits (current ++ block.map (Member.shift (groupSize current))) where
  sized := by
    intro member found
    rcases List.mem_append.1 found with before | moved
    · exact first.sized member before
    · obtain ⟨original, inBlock, rfl⟩ := List.mem_map.1 moved
      exact (Member.hasValidSize_withOffset _ original).2
        (second.sized original inBlock)
  contiguous := first.contiguous.append (second.contiguous.map_shift _)
  bounded := by
    rw [groupSize_append, groupSize_map_shift]
    exact room

/-! ### What one placement keeps -/

/-- The members with their offsets forgotten. -/
def withoutOffsets (members : List Member) : List Member :=
  members.map (Member.withOffset 0)

theorem withoutOffsets_append (left right : List Member) :
    withoutOffsets (left ++ right) =
      withoutOffsets left ++ withoutOffsets right :=
  List.map_append

private theorem withoutOffsets_map_shift (distance : Nat)
    (members : List Member) :
    withoutOffsets (members.map (Member.shift distance)) =
      withoutOffsets members := by
  unfold withoutOffsets
  rw [List.map_map]
  refine List.map_congr_left ?_
  intro member _
  exact Member.withOffset_withOffset _ _ member

/-- A member of a list without regard to offsets is a member of it with some
offset. -/
theorem exists_withOffset_of_mem {placed original : List Member}
    (same : withoutOffsets placed = withoutOffsets original)
    {member : Member} (found : member ∈ placed) :
    ∃ source ∈ original, member = source.withOffset member.info.offset := by
  have erased : member.withOffset 0 ∈ withoutOffsets original := by
    rw [← same]
    exact List.mem_map_of_mem found
  obtain ⟨source, inside, equal⟩ := List.mem_map.1 erased
  refine ⟨source, inside, ?_⟩
  have restored := congrArg (Member.withOffset member.info.offset) equal
  rw [Member.withOffset_withOffset, Member.withOffset_withOffset,
    Member.withOffset_offset] at restored
  exact restored.symm

namespace Packing

/-- What holds of a packing at any time: every finished slot holds members,
every slot fits, and the bytes in use are those of the open slot. -/
structure Sound (packing : Packing) : Prop where
  finished : ∀ group ∈ packing.finished, group ≠ [] ∧ Fits group
  current : Fits packing.current
  used : packing.used = groupSize packing.current

theorem sound_empty : Sound empty where
  finished := by
    intro group impossible
    cases impossible
  current := fits_nil
  used := rfl

theorem Sound.close {packing : Packing} (sound : packing.Sound) :
    ∀ group ∈ packing.close, group ≠ [] ∧ Fits group := by
  intro group found
  unfold Packing.close at found
  split at found
  · exact sound.finished group found
  · rename_i filled
    rcases List.mem_cons.1 found with rfl | earlier
    · refine ⟨?_, sound.current⟩
      intro empty
      exact filled (List.isEmpty_iff.2 empty)
    · exact sound.finished group earlier

theorem Sound.place {packing : Packing} (sound : packing.Sound)
    {block : SlotGroup} (fits : Fits block) : (packing.place block).Sound := by
  unfold Packing.place
  split
  · exact
      { finished := sound.close
        current := fits
        used := rfl }
  · rename_i room
    rw [sound.used] at room ⊢
    exact
      { finished := sound.finished
        current := sound.current.join fits (Nat.le_of_not_lt room)
        used := by rw [groupSize_append, groupSize_map_shift] }

theorem Sound.placeAll {packing : Packing} (sound : packing.Sound)
    {blocks : List SlotGroup} (fits : ∀ block ∈ blocks, Fits block) :
    (blocks.foldl Packing.place packing).Sound := by
  induction blocks generalizing packing with
  | nil => exact sound
  | cons block rest inductionHypothesis =>
      refine inductionHypothesis (sound.place (fits block List.mem_cons_self)) ?_
      intro other later
      exact fits other (List.mem_cons_of_mem block later)

theorem groups_of_unopened {packing : Packing}
    (empty : packing.current = []) :
    packing.groups = packing.finished.reverse := by
  rw [groups, close, if_pos (List.isEmpty_iff.2 empty)]

theorem groups_of_opened {packing : Packing} (filled : packing.current ≠ []) :
    packing.groups = packing.finished.reverse ++ [packing.current] := by
  rw [groups, close, if_neg (fun empty => filled (List.isEmpty_iff.1 empty)),
    List.reverse_cons]

theorem flatten_groups (packing : Packing) :
    packing.groups.flatten =
      packing.finished.reverse.flatten ++ packing.current := by
  by_cases empty : packing.current = []
  · rw [groups_of_unopened empty, empty, List.append_nil]
  · rw [groups_of_opened empty, List.flatten_append, List.flatten_singleton]

theorem current_place_ne_nil (packing : Packing) {block : SlotGroup}
    (filled : block ≠ []) : (packing.place block).current ≠ [] := by
  unfold place
  split
  · exact filled
  · apply List.append_ne_nil_of_right_ne_nil
    intro empty
    exact filled (List.map_eq_nil_iff.1 empty)

theorem groups_place_of_overflow {packing : Packing} {block : SlotGroup}
    (filled : block ≠ [])
    (overflow : TypeName.slotSize < packing.used + groupSize block) :
    (packing.place block).groups = packing.groups ++ [block] := by
  rw [groups_of_opened (packing.current_place_ne_nil filled), place,
    if_pos overflow]
  rfl

theorem groups_place_of_room {packing : Packing} {block : SlotGroup}
    (filled : block ≠ [])
    (room : ¬TypeName.slotSize < packing.used + groupSize block) :
    (packing.place block).groups =
      packing.finished.reverse ++
        [packing.current ++ block.map (Member.shift packing.used)] := by
  rw [groups_of_opened (packing.current_place_ne_nil filled), place,
    if_neg room]

/-- A slot that is closed for lack of room holds members. -/
theorem Sound.current_ne_nil {packing : Packing} (sound : packing.Sound)
    {block : SlotGroup} (bounded : groupSize block ≤ TypeName.slotSize)
    (overflow : TypeName.slotSize < packing.used + groupSize block) :
    packing.current ≠ [] := by
  intro empty
  rw [sound.used, empty, groupSize] at overflow
  omega

/-- Neighbouring slots stay related if each slot is related to the block that
has no room in it, however the slot of that block grows. -/
theorem isChain_place {related : SlotGroup → SlotGroup → Prop}
    (grows : ∀ first second more, second ≠ [] → related first second →
      related first (second ++ more))
    {packing : Packing} (opened : packing.current = [] → packing.finished = [])
    (chained : packing.groups.IsChain related) {block : SlotGroup}
    (filled : block ≠ [])
    (starts : TypeName.slotSize < packing.used + groupSize block →
      packing.current ≠ [] ∧ related packing.current block) :
    (packing.place block).groups.IsChain related := by
  by_cases overflow : TypeName.slotSize < packing.used + groupSize block
  · obtain ⟨holds, border⟩ := starts overflow
    rw [groups_place_of_overflow filled overflow]
    apply chained.append (.singleton _)
    rw [groups_of_opened holds, List.getLast?_concat]
    intro last isLast next isNext
    cases isLast
    cases isNext
    exact border
  · rw [groups_place_of_room filled overflow]
    by_cases empty : packing.current = []
    · rw [opened empty]
      exact .singleton _
    · -- The open slot keeps its start, so it is related as before.
      rw [groups_of_opened empty] at chained
      obtain ⟨before, -, border⟩ := List.isChain_append.1 chained
      apply before.append (.singleton _)
      intro last isLast next isNext
      cases isNext
      exact grows last _ _ empty (border last isLast _ rfl)

private theorem withoutOffsets_place (packing : Packing) (block : SlotGroup) :
    withoutOffsets (packing.place block).groups.flatten =
      withoutOffsets packing.groups.flatten ++ withoutOffsets block := by
  rw [flatten_groups (packing.place block)]
  unfold place
  split
  · exact withoutOffsets_append packing.groups.flatten block
  · rw [flatten_groups packing, ← List.append_assoc, withoutOffsets_append,
      withoutOffsets_map_shift]

private theorem withoutOffsets_placeAll (packing : Packing)
    (blocks : List SlotGroup) :
    withoutOffsets (blocks.foldl place packing).groups.flatten =
      withoutOffsets packing.groups.flatten ++
        withoutOffsets blocks.flatten := by
  induction blocks generalizing packing with
  | nil => exact (List.append_nil _).symm
  | cons block rest inductionHypothesis =>
      rw [List.foldl_cons, inductionHypothesis, withoutOffsets_place,
        List.flatten_cons, withoutOffsets_append, List.append_assoc]

end Packing

theorem arrange_fits {blocks : List SlotGroup}
    (fits : ∀ block ∈ blocks, Fits block) :
    ∀ group ∈ arrange blocks, group ≠ [] ∧ Fits group := by
  intro group found
  exact (Packing.sound_empty.placeAll fits).close group
    (List.mem_reverse.1 found)

theorem withoutOffsets_arrange (blocks : List SlotGroup) :
    withoutOffsets (arrange blocks).flatten =
      withoutOffsets blocks.flatten :=
  Packing.withoutOffsets_placeAll Packing.empty blocks

/-! ### Packing against the leaves -/

/-- The outcome that the leaves of members call for: the fault of the first
leaf without a valid size, or groups that fit and hold the leaves. -/
inductive PackedAs (leaves : List Member) :
    Except Fault (List SlotGroup) → Prop
  | stopped (before : List Member) (bad : Member) (after : List Member)
      (split : leaves = before ++ bad :: after)
      (valid : ∀ leaf ∈ before, leaf.HasValidSize)
      (invalid : ¬bad.HasValidSize) :
      PackedAs leaves
        (.error
          (.invalidSize bad.info.name.value bad.info.type bad.info.size))
  | placed (groups : List SlotGroup)
      (valid : ∀ leaf ∈ leaves, leaf.HasValidSize)
      (fits : ∀ group ∈ groups, group ≠ [] ∧ Fits group)
      (same : withoutOffsets groups.flatten = withoutOffsets leaves) :
      PackedAs leaves (.ok groups)

theorem PackedAs.arrange {leaves : List Member} {blocks : List SlotGroup}
    (packed : PackedAs leaves (.ok blocks)) :
    PackedAs leaves (.ok (Storage.arrange blocks)) := by
  cases packed with
  | placed _ valid fits same =>
      refine .placed _ valid (arrange_fits fun block found => (fits block found).2) ?_
      rw [withoutOffsets_arrange, same]

private theorem packedAs_single (member : Member) :
    PackedAs [member]
      (match member.width? with
      | some _ => .ok [[member.withOffset 0]]
      | none =>
          .error
            (.invalidSize member.info.name.value member.info.type
              member.info.size)) := by
  cases found : member.width? with
  | some bytes =>
      have valid : member.HasValidSize := member.hasValidSize_iff.2 ⟨bytes, found⟩
      refine .placed _ ?_ ?_ ?_
      · intro leaf single
        rw [List.mem_singleton.1 single]
        exact valid
      · intro group single
        rw [List.mem_singleton.1 single]
        exact ⟨List.cons_ne_nil _ _, fits_single valid⟩
      · simp only [withoutOffsets, List.flatten_cons, List.flatten_nil,
          List.append_nil, List.map_cons, List.map_nil,
          Member.withOffset_withOffset]
  | none =>
      refine .stopped [] member [] rfl ?_ ?_
      · intro leaf impossible
        cases impossible
      · rw [member.hasValidSize_iff, found]
        rintro ⟨bytes, impossible⟩
        cases impossible

theorem PackedAs.append {first second : List Member}
    {outcome others : Except Fault (List SlotGroup)} :
    PackedAs first outcome → PackedAs second others →
      PackedAs (first ++ second)
        (match outcome with
        | .error fault => .error fault
        | .ok blocks =>
            match others with
            | .error fault => .error fault
            | .ok more => .ok (blocks ++ more)) := by
  intro before after
  cases before with
  | stopped front bad back split valid invalid =>
      refine .stopped front bad (back ++ second) ?_ valid invalid
      rw [split, List.append_assoc, List.cons_append]
  | placed blocks valid fits same =>
      cases after with
      | stopped front bad back split validFront invalid =>
          refine .stopped (first ++ front) bad back ?_ ?_ invalid
          · rw [split, List.append_assoc]
          · intro leaf found
            rcases List.mem_append.1 found with early | late
            · exact valid leaf early
            · exact validFront leaf late
      | placed more validMore fitsMore sameMore =>
          refine .placed (blocks ++ more) ?_ ?_ ?_
          · intro leaf found
            rcases List.mem_append.1 found with early | late
            · exact valid leaf early
            · exact validMore leaf late
          · intro group found
            rcases List.mem_append.1 found with early | late
            · exact fits group early
            · exact fitsMore group late
          · rw [List.flatten_append, withoutOffsets_append,
              withoutOffsets_append, same, sameMore]

-- The recursion is that of `blocksOf`: parts are arranged on their own before
-- the member's own blocks are known.
mutual

private theorem packedAs_blocksOf :
    (member : Member) → PackedAs member.leaves (blocksOf member)
  | .mk info (some (part :: rest)) => by
      have packed := packedAs_blocksOfAll (part :: rest)
      simp only [Member.leaves, blocksOf]
      cases outcome : blocksOfAll (part :: rest) with
      | error fault =>
          rw [outcome] at packed
          exact packed
      | ok blocks =>
          rw [outcome] at packed
          exact packed.arrange
  | .mk info (some []) => by
      simp only [Member.leaves, blocksOf]
      exact packedAs_single _
  | .mk info none => by
      simp only [Member.leaves, blocksOf]
      exact packedAs_single _

theorem packedAs_blocksOfAll :
    (members : List Member) →
      PackedAs (Member.leavesOfAll members) (blocksOfAll members)
  | [] => by
      simp only [Member.leavesOfAll, blocksOfAll]
      refine .placed [] ?_ ?_ rfl
      · intro leaf impossible
        cases impossible
      · intro group impossible
        cases impossible
  | member :: rest => by
      simp only [Member.leavesOfAll, blocksOfAll]
      exact (packedAs_blocksOf member).append (packedAs_blocksOfAll rest)

end

theorem packedAs_pack (members : List Member) :
    PackedAs (Member.leavesOfAll members) (pack members) := by
  have packed := packedAs_blocksOfAll members
  unfold pack
  cases outcome : blocksOfAll members with
  | error fault =>
      rw [outcome] at packed
      exact packed
  | ok blocks =>
      rw [outcome] at packed
      exact packed.arrange

/-! ### Slots as they are seen from outside -/

/-- A slot as packing leaves it: it holds members, each with an integer size,
the first at offset zero, each next one where the one before it ends, and the
last one ends within the slot. -/
structure Slotted (group : SlotGroup) : Prop where
  nonempty : group ≠ []
  sized : ∀ member ∈ group,
    member.info.size.toInt? = some (member.width : Int)
  first : ∀ member ∈ group.head?, member.info.offset = 0
  adjacent : group.IsChain fun member next =>
    next.info.offset = member.info.offset + member.width
  last : ∀ member ∈ group.getLast?,
    member.info.offset + member.width ≤ TypeName.slotSize

private theorem Contiguous.isChain {start : Nat} {group : SlotGroup}
    (contiguous : Contiguous start group) :
    group.IsChain fun member next =>
      next.info.offset = member.info.offset + member.width := by
  induction group generalizing start with
  | nil => exact .nil
  | cons member rest inductionHypothesis =>
      cases rest with
      | nil => exact .singleton member
      | cons next more =>
          refine .cons_cons ?_ (inductionHypothesis contiguous.2)
          rw [contiguous.1]
          exact contiguous.2.1

private theorem Contiguous.end_eq {start : Nat} {group : SlotGroup}
    (contiguous : Contiguous start group) {member : Member}
    (last : member ∈ group.getLast?) :
    member.info.offset + member.width = start + groupSize group := by
  induction group generalizing start with
  | nil => cases last
  | cons head rest inductionHypothesis =>
      cases rest with
      | nil =>
          rw [List.getLast?_singleton, Option.mem_some_iff] at last
          rw [← last, contiguous.1]
          rfl
      | cons next more =>
          rw [List.getLast?_cons_cons] at last
          rw [inductionHypothesis contiguous.2 last, Nat.add_assoc]
          rfl

theorem Fits.slotted {group : SlotGroup} (fits : Fits group)
    (nonempty : group ≠ []) : Slotted group where
  nonempty := nonempty
  sized := fun member found => (fits.sized member found).width_spec.1
  first := by
    intro member head
    cases group with
    | nil => cases head
    | cons first rest =>
        cases head
        exact fits.contiguous.1
  adjacent := fits.contiguous.isChain
  last := by
    intro member last
    rw [fits.contiguous.end_eq last, Nat.zero_add]
    exact fits.bounded

theorem forall₂_of_withoutOffsets_eq {placed leaves : List Member}
    (same : withoutOffsets placed = withoutOffsets leaves) :
    List.Forall₂
      (fun member leaf => member = leaf.withOffset member.info.offset)
      placed leaves := by
  rw [withoutOffsets, withoutOffsets, ← List.forall₂_eq_eq_eq,
    List.forall₂_map_left_iff, List.forall₂_map_right_iff] at same
  refine same.imp ?_
  intro member leaf equal
  have restored := congrArg (Member.withOffset member.info.offset) equal
  rw [Member.withOffset_withOffset, Member.withOffset_withOffset,
    Member.withOffset_offset] at restored
  exact restored

end Storage

end ContractAtlas
