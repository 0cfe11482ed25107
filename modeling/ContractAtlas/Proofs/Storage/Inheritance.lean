/-
Inherited storage stays in place.

The variables of a contract whose bases end in the bases of another contract
start with the variables of that other contract.  Its members then start with
the other's members, and laying out further members moves none of them.
-/

import ContractAtlas.Proofs.Source.Samples
import ContractAtlas.Proofs.Storage.Collection

namespace ContractAtlas

theorem Node.firstOfEach_append (seen : List Nat) (first second : List Node) :
    ∃ more, firstOfEach seen (first ++ second) =
      firstOfEach seen first ++ more := by
  induction first generalizing seen with
  | nil => exact ⟨firstOfEach seen second, rfl⟩
  | cons node rest inductionHypothesis =>
      rw [List.cons_append, firstOfEach, firstOfEach]
      split
      · exact inductionHypothesis seen
      · obtain ⟨more, same⟩ := inductionHypothesis (node.info.position :: seen)
        exact ⟨more, by rw [same, List.cons_append]⟩

namespace Compilation

theorem definitionsOfKind_eq (compilation : Compilation) (kind : Kind)
    (contract : Node) :
    compilation.definitionsOfKind kind contract =
      Node.firstOfEach []
        ((compilation.linearizedBases contract).reverse.flatMap
          (Node.membersOfKind kind)) := by
  simp only [definitionsOfKind, definitions, Bool.true_or, List.filter_true]

private theorem stateVariables_of_inherits {compilation : Compilation}
    {base derived : Node} {more : List Node}
    (inherits :
      compilation.linearizedBases derived =
        more ++ compilation.linearizedBases base) :
    ∃ own, compilation.stateVariables derived =
      compilation.stateVariables base ++ own := by
  simp only [stateVariables, definitionsOfKind_eq]
  rw [inherits, List.reverse_append, List.flatMap_append]
  exact Node.firstOfEach_append [] _ _

theorem layout_eq_ok_iff {compilation : Compilation} {flatten : Bool}
    {contract : Node} {layout : Layout} :
    compilation.layout flatten contract = .ok layout ↔
      ∃ members numbered,
        compilation.collect flatten contract =
            .ok (members, layout.constants) ∧
          Storage.layOut members = .ok numbered ∧
          numbered.slots = layout.slots := by
  constructor
  · intro succeeds
    obtain ⟨⟨members, constants⟩, collected, succeeds⟩ :=
      exists_of_bind_eq_ok succeeds
    obtain ⟨numbered, laidOut, succeeds⟩ := exists_of_bind_eq_ok succeeds
    cases succeeds
    exact ⟨members, numbered, collected, laidOut, rfl⟩
  · rintro ⟨members, numbered, collected, laidOut, sameSlots⟩
    have assembled : compilation.layout flatten contract =
        .ok { numbered with constants := layout.constants } := by
      rw [Compilation.layout, collected]
      show (Storage.layOut members >>= _) = _
      rw [laidOut]
      rfl
    rw [assembled, sameSlots]

/-- If the bases of a contract end in the bases of another one and its storage
can be laid out, so can the storage of the other one.  The constants of the
other one come first, and each of its slots keeps its index, its members and
their offsets; only its last slot may get further members. -/
theorem layout_keeps_inherited_slots (compilation : Compilation)
    (flatten : Bool) (base derived : Node) (more : List Node)
    (inherits :
      compilation.linearizedBases derived =
        more ++ compilation.linearizedBases base)
    (whole : Layout)
    (succeeds : compilation.layout flatten derived = .ok whole) :
    ∃ part, compilation.layout flatten base = .ok part ∧
      part.constants <+: whole.constants ∧
      part.slots.length ≤ whole.slots.length ∧
      ∀ index : Nat, index < part.slots.length →
        ∃ before after, part.membersAt index = .ok before ∧
          whole.membersAt index = .ok after ∧ before <+: after ∧
          (index + 1 < part.slots.length → before = after) := by
  obtain ⟨members, numbered, collected, laidOut, sameSlots⟩ :=
    layout_eq_ok_iff.1 succeeds
  have fills := arrayFillsSlot_of_collectFrom collected
  obtain ⟨own, ordered⟩ := stateVariables_of_inherits inherits
  rw [collect, ordered] at collected
  obtain ⟨front, moreMembers, constants, moreConstants, gathered, rfl,
      allConstants⟩ :=
    collectFrom_append collected
  obtain ⟨frontLayout, groups, all, laidOutFront, frontSlots, allSlots, grows⟩ :=
    Storage.grows_layOut_append fills laidOut
  obtain ⟨part, partSlots, partConstants⟩ : ∃ part : Layout,
      part.slots = frontLayout.slots ∧ part.constants = constants :=
    ⟨{ frontLayout with constants := constants }, rfl, rfl⟩
  have wholeSlots : whole.slots = Storage.slotsFrom 0 all := by
    rw [← sameSlots, allSlots]
  refine ⟨part, ?_, ?_, ?_⟩
  · rw [layout_eq_ok_iff, partConstants]
    exact ⟨front, frontLayout, gathered, laidOutFront, partSlots.symm⟩
  · rw [partConstants]
    exact ⟨moreConstants, allConstants.symm⟩
  · exact Storage.membersAt_of_grows (partSlots.trans frontSlots) wholeSlots
      grows

/-! ### A contract with one base -/

/-- A state variable of the contract at a position. -/
def stateVariable (position contract : Nat) (name type : String) : Node :=
  (Sample.stateVariable position name type).node (some contract) "nodes" true

/-- `contract Owned` with `address owner`, and `contract Paused is Owned` with
`bool paused`. -/
def pausedUnits : List (String × Sample) :=
  [("src/Paused.sol",
    .unit 0 (.str "src/Paused.sol")
      [.contract 1 "Owned" [1] [.stateVariable 2 "owner" "address"],
        .contract 3 "Paused" [3, 1] [.stateVariable 4 "paused" "bool"]])]

def ownedAndPaused : Compilation :=
  Sample.compilation pausedUnits

def owned : Node :=
  (Sample.contract 1 "Owned" [1] [.stateVariable 2 "owner" "address"]).node
    (some 0) "nodes" true

def paused : Node :=
  (Sample.contract 3 "Paused" [3, 1] [.stateVariable 4 "paused" "bool"]).node
    (some 0) "nodes" true

private theorem read_ownedAndPaused :
    (Reading.read (Sample.file pausedUnits)).outcome = .ok ownedAndPaused :=
  (rfl)

private theorem normalize_address :
    TypeName.normalize "address".toList = "address".toList :=
  TypeName.normalize_of_stable rfl rfl

private theorem normalize_bool :
    TypeName.normalize "bool".toList = "bool".toList :=
  TypeName.normalize_of_stable rfl rfl

private theorem scalarWidth_owner :
    ownedAndPaused.scalarWidth (stateVariable 2 1 "owner" "address") "address" =
      .ok 20 :=
  scalarWidth_of_normal normalize_address rfl rfl rfl rfl

private theorem scalarWidth_paused :
    ownedAndPaused.scalarWidth (stateVariable 4 3 "paused" "bool") "bool" =
      .ok 1 :=
  scalarWidth_of_normal normalize_bool rfl rfl rfl rfl

def ownedMembers : List Member :=
  [.mk (ownedAndPaused.memberInfo (stateVariable 2 1 "owner" "address")
      "address" 20 none) none,
    .mk (ownedAndPaused.memberInfo (stateVariable 4 3 "paused" "bool")
      "bool" 1 none) none]

private theorem collect_paused :
    ownedAndPaused.collect true paused = .ok (ownedMembers, []) := by
  have ownerPlain : TypeName.isStruct "address".toList = false := by
    rw [TypeName.isStruct, normalize_address]
    rfl
  have pausedPlain : TypeName.isStruct "bool".toList = false := by
    rw [TypeName.isStruct, normalize_bool]
    rfl
  have ownerMember : ownedAndPaused.membersOf true none []
      [stateVariable 2 1 "owner" "address"] = .ok [_] :=
    membersOf_of_collected
      (.scalar rfl ownerPlain scalarWidth_owner (.nil none []))
  have pausedMember : ownedAndPaused.membersOf true none []
      [stateVariable 4 3 "paused" "bool"] = .ok [_] :=
    membersOf_of_collected
      (.scalar rfl pausedPlain scalarWidth_paused (.nil none []))
  have ordered : ownedAndPaused.stateVariables paused =
      [stateVariable 2 1 "owner" "address",
        stateVariable 4 3 "paused" "bool"] := rfl
  rw [collect, ordered, collectFrom, if_neg (by decide), ownerMember,
    collectFrom, if_neg (by decide), pausedMember]
  rfl

private theorem exists_layout_paused :
    ∃ whole, ownedAndPaused.layout true paused = .ok whole := by
  have numbers : (Storage.layOut ownedMembers).toOption.isSome := rfl
  obtain ⟨numbered, found⟩ := Option.isSome_iff_exists.1 numbers
  exact ⟨{ numbered with constants := [] },
    layout_eq_ok_iff.2
      ⟨ownedMembers, numbered, collect_paused, eq_ok_of_toOption found, rfl⟩⟩

theorem layout_paused_keeps_owned :
    (Reading.read (Sample.file pausedUnits)).outcome = .ok ownedAndPaused ∧
      ownedAndPaused.linearizedBases paused =
        [paused] ++ ownedAndPaused.linearizedBases owned ∧
      ∃ whole part, ownedAndPaused.layout true paused = .ok whole ∧
        ownedAndPaused.layout true owned = .ok part ∧
        part.constants <+: whole.constants ∧
        part.slots.length ≤ whole.slots.length ∧
        ∀ index : Nat, index < part.slots.length →
          ∃ before after, part.membersAt index = .ok before ∧
            whole.membersAt index = .ok after ∧ before <+: after ∧
            (index + 1 < part.slots.length → before = after) := by
  obtain ⟨whole, succeeds⟩ := exists_layout_paused
  obtain ⟨part, laidOut, kept⟩ :=
    layout_keeps_inherited_slots ownedAndPaused true owned paused [paused] rfl
      whole succeeds
  exact ⟨read_ownedAndPaused, rfl, whole, part, succeeds, laidOut, kept⟩

end Compilation

end ContractAtlas
