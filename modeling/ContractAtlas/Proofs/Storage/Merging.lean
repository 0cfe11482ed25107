/-
Merging structs.

The parts of a struct are packed on their own, and what is placed are the
slots that this gives.  Each of them lands whole in one slot, moved by the
bytes that are in use there, and starts a slot exactly when the open one has
no room for it.  Neighbouring slots of a packing never fit into one slot, so
placing them again changes nothing: a list of members packs in the same way
inside any number of structs around it.
-/

import ContractAtlas.Proofs.Storage.Growth

namespace ContractAtlas.Storage

/-! ### Where a block lands -/

/-- Where a block lands among slots, behind the members that were placed
before it.  These fill the slots that are done and the open slot. -/
inductive Lands (slots : List SlotGroup) (earlier : List Member)
    (block : SlotGroup) : Prop
  /-- The open slot has room, so the block goes behind what it holds.  It is
  empty only as long as there are no other slots. -/
  | joins (done : List SlotGroup) (opened later : SlotGroup)
      (rest : List SlotGroup)
      (placed : withoutOffsets (done ++ [opened]).flatten =
        withoutOffsets earlier)
      (first : opened = [] → done = [])
      (room : groupSize opened + groupSize block ≤ TypeName.slotSize)
      (same : slots = done ++
        (opened ++ block.map (Member.shift (groupSize opened)) ++ later) ::
          rest)
  /-- The open slot has no room, so the block starts the next slot. -/
  | starts (done : List SlotGroup) (opened later : SlotGroup)
      (rest : List SlotGroup)
      (placed : withoutOffsets (done ++ [opened]).flatten =
        withoutOffsets earlier)
      (filled : opened ≠ [])
      (overflow : TypeName.slotSize < groupSize opened + groupSize block)
      (same : slots = done ++ opened :: (block ++ later) :: rest)

theorem Lands.congr {slots : List SlotGroup} {first second : List Member}
    {block : SlotGroup} (lands : Lands slots first block)
    (same : withoutOffsets first = withoutOffsets second) :
    Lands slots second block := by
  cases lands with
  | joins done opened later rest placed alone room slotsSame =>
      exact .joins done opened later rest (placed.trans same) alone room slotsSame
  | starts done opened later rest placed filled overflow slotsSame =>
      exact .starts done opened later rest (placed.trans same) filled overflow
        slotsSame

private theorem Grows.exists_of_concat {done : List SlotGroup}
    {last : SlotGroup}
    {whole : List SlotGroup} (grows : Grows (done ++ [last]) whole) :
    ∃ later rest, whole = done ++ (last ++ later) :: rest := by
  induction done generalizing whole with
  | nil =>
      cases grows with
      | last _ more rest _ => exact ⟨more, rest, rfl⟩
      | @cons _ _ whole _ => exact ⟨[], whole, by rw [List.append_nil]; rfl⟩
  | cons group done inductionHypothesis =>
      rw [List.cons_append] at grows
      generalize extended : done ++ [last] = part at grows
      cases grows with
      | last => simp at extended
      | cons _ grows =>
          rw [← extended] at grows
          obtain ⟨later, rest, same⟩ := inductionHypothesis grows
          exact ⟨later, rest, by rw [same]; rfl⟩

namespace Packing

private theorem opened_placeAll (packing : Packing)
    (opened : packing.current = [] → packing.finished = [])
    {blocks : List SlotGroup} (filled : ∀ block ∈ blocks, block ≠ []) :
    (blocks.foldl place packing).current = [] →
      (blocks.foldl place packing).finished = [] := by
  induction blocks generalizing packing with
  | nil => exact opened
  | cons block rest inductionHypothesis =>
      obtain ⟨own, others⟩ := List.forall_mem_cons.1 filled
      apply inductionHypothesis (packing.place block) _ others
      intro empty
      exact absurd empty (packing.current_place_ne_nil own)

/-- What holds the members of a packing is where the next block lands. -/
theorem Sound.lands {packing : Packing} (sound : packing.Sound)
    (opened : packing.current = [] → packing.finished = [])
    {block : SlotGroup} (filled : block ≠ []) (fits : Fits block)
    {slots : List SlotGroup} (grows : Grows (packing.place block).groups slots) :
    Lands slots packing.groups.flatten block := by
  have placed : withoutOffsets
      (packing.finished.reverse ++ [packing.current]).flatten =
        withoutOffsets packing.groups.flatten := by
    rw [flatten_groups, List.flatten_append, List.flatten_singleton]
  by_cases overflow : TypeName.slotSize < packing.used + groupSize block
  · have holds := sound.current_ne_nil fits.bounded overflow
    rw [groups_place_of_overflow filled overflow] at grows
    obtain ⟨later, rest, same⟩ := grows.exists_of_concat
    rw [groups_of_opened holds, List.append_assoc] at same
    rw [sound.used] at overflow
    exact .starts _ _ later rest placed holds overflow same
  · rw [groups_place_of_room filled overflow, sound.used] at grows
    obtain ⟨later, rest, same⟩ := grows.exists_of_concat
    rw [sound.used] at overflow
    refine .joins _ _ later rest placed ?_ (Nat.le_of_not_lt overflow) same
    intro empty
    rw [opened empty, List.reverse_nil]

end Packing

private theorem lands_arrange {front back : List SlotGroup} {block : SlotGroup}
    (fits : ∀ other ∈ front ++ block :: back, other ≠ [] ∧ Fits other) :
    Lands (arrange (front ++ block :: back)) front.flatten block := by
  obtain ⟨frontFits, restFits⟩ := List.forall_mem_append.1 fits
  obtain ⟨⟨filled, own⟩, backFits⟩ := List.forall_mem_cons.1 restFits
  have sound := Packing.sound_empty.placeAll
    fun other found => (frontFits other found).2
  have opened := Packing.empty.opened_placeAll (fun _ => rfl)
    fun other found => (frontFits other found).1
  have grows := ((front.foldl Packing.place Packing.empty).place block)
    |>.grows_placeAll fun other found => (backFits other found).1
  rw [← List.foldl_cons, ← List.foldl_append] at grows
  exact (sound.lands opened filled own grows).congr (withoutOffsets_arrange front)

/-! ### Placing slots again -/

/-- Two slots that have no room for each other. -/
def Exceed (first second : SlotGroup) : Prop :=
  TypeName.slotSize < groupSize first + groupSize second

private theorem Packing.isChain_placeAll {packing : Packing}
    (sound : packing.Sound)
    (opened : packing.current = [] → packing.finished = [])
    (chained : packing.groups.IsChain Exceed) {blocks : List SlotGroup}
    (fits : ∀ block ∈ blocks, block ≠ [] ∧ Fits block) :
    (blocks.foldl Packing.place packing).groups.IsChain Exceed := by
  induction blocks generalizing packing with
  | nil => exact chained
  | cons block rest inductionHypothesis =>
      obtain ⟨⟨filled, own⟩, others⟩ := List.forall_mem_cons.1 fits
      apply inductionHypothesis (sound.place own) _ _ others
      · intro empty
        exact absurd empty (packing.current_place_ne_nil filled)
      · apply isChain_place _ opened chained filled
        · intro overflow
          refine ⟨sound.current_ne_nil own.bounded overflow, ?_⟩
          rw [sound.used] at overflow
          exact overflow
        · intro first second more _ exceeds
          unfold Exceed at exceeds ⊢
          rw [groupSize_append]
          omega

/-- Neighbouring slots never fit into one. -/
theorem isChain_exceed_arrange {blocks : List SlotGroup}
    (fits : ∀ block ∈ blocks, block ≠ [] ∧ Fits block) :
    (arrange blocks).IsChain Exceed :=
  Packing.isChain_placeAll Packing.sound_empty (fun _ => rfl) .nil fits

theorem map_shift_zero (group : SlotGroup) :
    group.map (Member.shift 0) = group := by
  rw [← List.map_id group, List.map_map]
  apply List.map_congr_left
  intro member _
  exact member.withOffset_offset

private theorem Packing.groups_placeAll_of_exceed {packing : Packing}
    (used : packing.used = groupSize packing.current)
    (holds : packing.current ≠ []) {groups : List SlotGroup}
    (filled : ∀ group ∈ groups, group ≠ [])
    (chained : (packing.current :: groups).IsChain Exceed) :
    (groups.foldl Packing.place packing).groups = packing.groups ++ groups := by
  induction groups generalizing packing with
  | nil => rw [List.foldl_nil, List.append_nil]
  | cons group rest inductionHypothesis =>
      obtain ⟨own, others⟩ := List.forall_mem_cons.1 filled
      obtain ⟨exceeds, later⟩ := List.isChain_cons_cons.1 chained
      have overflow : TypeName.slotSize < packing.used + groupSize group := by
        rw [used]
        exact exceeds
      have next : packing.place group =
          { finished := packing.close
            current := group
            used := groupSize group } := by
        rw [place, if_pos overflow]
      have placed := groups_place_of_overflow own overflow
      rw [next] at placed
      rw [List.foldl_cons, next, inductionHypothesis rfl own others later, placed,
        List.append_assoc]
      rfl

/-- Slots without room for their neighbours are placed as they are. -/
theorem arrange_of_exceed {groups : List SlotGroup}
    (fits : ∀ group ∈ groups, group ≠ [] ∧ Fits group)
    (chained : groups.IsChain Exceed) : arrange groups = groups := by
  cases groups with
  | nil => rfl
  | cons group rest =>
      obtain ⟨⟨filled, own⟩, others⟩ := List.forall_mem_cons.1 fits
      have room : ¬TypeName.slotSize < Packing.empty.used + groupSize group := by
        rw [Packing.empty, Nat.zero_add]
        exact Nat.not_lt.2 own.bounded
      have first : Packing.empty.place group =
          { finished := [], current := group, used := groupSize group } := by
        rw [Packing.place, if_neg room]
        simp only [Packing.empty, map_shift_zero, List.nil_append, Nat.zero_add]
      rw [arrange, List.foldl_cons, first,
        Packing.groups_placeAll_of_exceed rfl filled
          (fun other found => (others other found).1) chained,
        Packing.groups_of_opened filled]
      rfl

private theorem arrange_arrange {blocks : List SlotGroup}
    (fits : ∀ block ∈ blocks, block ≠ [] ∧ Fits block) :
    arrange (arrange blocks) = arrange blocks :=
  arrange_of_exceed (arrange_fits fun block found => (fits block found).2)
    (isChain_exceed_arrange fits)

/-! ### Structs -/

private theorem fits_of_blocksOfAll {members : List Member}
    {blocks : List SlotGroup}
    (found : blocksOfAll members = .ok blocks) :
    (∀ block ∈ blocks, block ≠ [] ∧ Fits block) ∧
      withoutOffsets blocks.flatten =
        withoutOffsets (Member.leavesOfAll members) := by
  have packed := packedAs_blocksOfAll members
  rw [found] at packed
  cases packed with
  | placed _ _ fits same => exact ⟨fits, same⟩

theorem blocksOfAll_singleton (member : Member) :
    blocksOfAll [member] = blocksOf member := by
  rw [blocksOfAll]
  cases blocksOf member with
  | error fault => rfl
  | ok blocks => simp only [blocksOfAll, List.append_nil]

/-- The blocks of a struct are its parts as they are packed on their own. -/
theorem blocksOf_struct (info : MemberInfo) {parts : List Member}
    (nonempty : parts ≠ []) :
    blocksOf (.mk info (some parts)) = pack parts := by
  cases parts with
  | nil => exact absurd rfl nonempty
  | cons part rest =>
      rw [blocksOf, pack]

private theorem pack_struct (info : MemberInfo) {parts : List Member}
    (nonempty : parts ≠ []) :
    pack [.mk info (some parts)] = pack parts := by
  unfold pack
  rw [blocksOfAll_singleton, blocksOf_struct info nonempty, pack]
  cases found : blocksOfAll parts with
  | error fault => rfl
  | ok blocks =>
      dsimp only
      rw [arrange_arrange (fits_of_blocksOfAll found).1]

/-- The members inside structs around them, the outermost one first. -/
def wrapped : List MemberInfo → List Member → List Member
  | [], members => members
  | info :: infos, members => [.mk info (some (wrapped infos members))]

theorem wrapped_ne_nil (infos : List MemberInfo) {members : List Member}
    (nonempty : members ≠ []) : wrapped infos members ≠ [] := by
  cases infos with
  | nil => exact nonempty
  | cons info infos => exact List.cons_ne_nil _ _

private theorem pack_wrapped (infos : List MemberInfo) {members : List Member}
    (nonempty : members ≠ []) : pack (wrapped infos members) = pack members := by
  induction infos with
  | nil => rfl
  | cons info infos inductionHypothesis =>
      rw [wrapped, pack_struct info (wrapped_ne_nil infos nonempty),
        inductionHypothesis]

theorem exists_blocksOfAll_of_append {first second : List Member}
    {blocks : List SlotGroup}
    (found : blocksOfAll (first ++ second) = .ok blocks) :
    ∃ front back, blocksOfAll first = .ok front ∧
      blocksOfAll second = .ok back ∧ blocks = front ++ back := by
  rw [blocksOfAll_append] at found
  cases frontFound : blocksOfAll first with
  | error fault =>
      rw [frontFound] at found
      cases found
  | ok front =>
      cases backFound : blocksOfAll second with
      | error fault =>
          rw [frontFound, backFound] at found
          cases found
      | ok back =>
          rw [frontFound, backFound] at found
          exact ⟨front, back, rfl, rfl, (Except.ok.inj found).symm⟩

/-- The blocks of a struct stand between those of the members around it. -/
theorem exists_blocks_of_struct {before parts after : List Member}
    {info : MemberInfo} (nonempty : parts ≠ []) {blocks : List SlotGroup}
    (found : blocksOfAll (before ++ .mk info (some parts) :: after) =
      .ok blocks) :
    ∃ outer inner later, blocksOfAll before = .ok outer ∧
      pack parts = .ok inner ∧ blocks = outer ++ (inner ++ later) := by
  obtain ⟨outer, rest, outerFound, restFound, rfl⟩ :=
    exists_blocksOfAll_of_append found
  rw [← List.singleton_append] at restFound
  obtain ⟨inner, later, innerFound, -, rfl⟩ :=
    exists_blocksOfAll_of_append restFound
  rw [blocksOfAll_singleton, blocksOf_struct info nonempty] at innerFound
  exact ⟨outer, inner, later, outerFound, innerFound, rfl⟩

private theorem exists_blocks_of_pack {members : List Member}
    {slots : List SlotGroup}
    (packed : pack members = .ok slots) :
    ∃ blocks, blocksOfAll members = .ok blocks ∧ slots = arrange blocks := by
  unfold pack at packed
  cases found : blocksOfAll members with
  | error fault =>
      rw [found] at packed
      cases packed
  | ok blocks =>
      rw [found] at packed
      exact ⟨blocks, rfl, (Except.ok.inj packed).symm⟩

/-- If a list of members packs, so do the parts of each struct in it.  Each of
their slots lands whole in one slot of the list, behind the members before the
struct and the slots before it, moved by the bytes in use there, and it starts
a slot exactly when the open slot has no room for it.  Structs around a whole
list change nothing, however many there are. -/
theorem pack_merges_structs :
    (∀ (before parts after : List Member) (info : MemberInfo)
        (slots : List SlotGroup), parts ≠ [] →
      pack (before ++ .mk info (some parts) :: after) = .ok slots →
      ∃ inner, pack parts = .ok inner ∧
        ∀ front block back, inner = front ++ block :: back →
          Lands slots (Member.leavesOfAll before ++ front.flatten) block) ∧
    ∀ (infos : List MemberInfo) (members : List Member), members ≠ [] →
      pack (wrapped infos members) = pack members := by
  constructor
  · intro before parts after info slots nonempty packed
    obtain ⟨blocks, found, rfl⟩ := exists_blocks_of_pack packed
    have fits := (fits_of_blocksOfAll found).1
    obtain ⟨outer, inner, later, outerFound, innerFound, rfl⟩ :=
      exists_blocks_of_struct nonempty found
    refine ⟨inner, innerFound, ?_⟩
    intro front block back same
    subst same
    have split : outer ++ (front ++ block :: back ++ later) =
        (outer ++ front) ++ block :: (back ++ later) := by
      simp only [List.append_assoc, List.cons_append]
    rw [split] at fits ⊢
    apply (lands_arrange fits).congr
    rw [List.flatten_append, withoutOffsets_append, withoutOffsets_append,
      (fits_of_blocksOfAll outerFound).2]
  · intro infos members nonempty
    exact pack_wrapped infos nonempty

def sized (bytes : Int) (offset : Nat) : Member :=
  .mk
    { name := .text "field"
      type := "bytes"
      size := .int bytes
      offset := offset }
    none

/-- The fields of a struct: the second one has no room behind the first. -/
def account : List Member :=
  [sized 16 0, sized 20 0, sized 4 0]

def accountInfo : MemberInfo :=
  { name := .text "account", type := "struct Account", size := .int 32 }

/-- The slots of eight bytes, the struct and four bytes. -/
def accountSlots : List SlotGroup :=
  [[sized 8 0, sized 16 8], [sized 20 0, sized 4 20, sized 4 24]]

theorem pack_account_merges :
    pack ([sized 8 0] ++ .mk accountInfo (some account) :: [sized 4 0]) =
        .ok accountSlots ∧
      pack account = .ok [[sized 16 0], [sized 20 0, sized 4 20]] ∧
      Lands accountSlots [sized 8 0] [sized 16 0] ∧
      Lands accountSlots [sized 8 0, sized 16 0] [sized 20 0, sized 4 20] ∧
      pack (wrapped [accountInfo, accountInfo] account) = pack account := by
  have packed : pack ([sized 8 0] ++ .mk accountInfo (some account) ::
      [sized 4 0]) = .ok accountSlots := rfl
  have alone : pack account = .ok [[sized 16 0], [sized 20 0, sized 4 20]] := rfl
  have nonempty : account ≠ [] := List.cons_ne_nil _ _
  obtain ⟨inner, innerFound, lands⟩ :=
    pack_merges_structs.1 _ _ _ _ _ nonempty packed
  have same := Except.ok.inj (innerFound.symm.trans alone)
  exact ⟨packed, alone, lands [] _ _ same, lands [[sized 16 0]] _ [] same,
    pack_merges_structs.2 _ _ nonempty⟩

end ContractAtlas.Storage
