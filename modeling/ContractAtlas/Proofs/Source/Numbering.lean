/-
Pre-order numbers and enclosing nodes.

A numbered tree counts its nodes in pre-order, and every node carries the
number of the node around it.  Resolving references changes neither, so in the
trees of a compilation the numbers tell all nodes apart and a node lies in the
node whose number it carries, and in no other.
-/

import Mathlib.Data.List.Nodup
import ContractAtlas.Proofs.Source.Traversal

namespace ContractAtlas

namespace Node

theorem preorderOfAll_eq_flatMap (nodes : List Node) :
    preorderOfAll nodes = nodes.flatMap preorder := by
  induction nodes with
  | nil => simp only [preorderOfAll, List.flatMap_nil]
  | cons node rest inductionHypothesis =>
      rw [preorderOfAll, inductionHypothesis, List.flatMap_cons]

mutual

/-- The tree is numbered in pre-order, starting with a given number. -/
def Numbered (parent : Option Nat) (position : Nat) : Node → Prop
  | mk info children =>
      info.position = position ∧ info.parent = parent ∧
        NumberedAll (some position) (position + 1) children

def NumberedAll (parent : Option Nat) (position : Nat) : List Node → Prop
  | [] => True
  | node :: rest =>
      Numbered parent position node ∧
        NumberedAll parent (position + node.size) rest

end

/-! ### Numbering and changing nodes -/

mutual

private theorem size_number (parent : Option Nat) (position : Nat) :
    (node : Node) → (number parent position node).size = node.size
  | mk info children => by
      simp only [number, size, sizeOfAll_numberAll]

private theorem sizeOfAll_numberAll (parent : Option Nat) (position : Nat) :
    (nodes : List Node) →
      sizeOfAll (numberAll parent position nodes) = sizeOfAll nodes
  | [] => by simp only [numberAll]
  | node :: rest => by
      simp only [numberAll, sizeOfAll, size_number, sizeOfAll_numberAll]

end

theorem length_numberAll (parent : Option Nat) (position : Nat)
    (nodes : List Node) :
    (numberAll parent position nodes).length = nodes.length := by
  induction nodes generalizing position with
  | nil => simp only [numberAll]
  | cons node rest inductionHypothesis =>
      rw [numberAll, List.length_cons, List.length_cons, inductionHypothesis]

mutual

private theorem numbered_number (parent : Option Nat) (position : Nat) :
    (node : Node) → Numbered parent position (number parent position node)
  | mk info children => by
      have below := numberedAll_numberAll (some position) (position + 1) children
      simpa only [number, Numbered, true_and] using below

theorem numberedAll_numberAll (parent : Option Nat) (position : Nat) :
    (nodes : List Node) →
      NumberedAll parent position (numberAll parent position nodes)
  | [] => by simp only [numberAll, NumberedAll]
  | node :: rest => by
      have first := numbered_number parent position node
      have others :=
        numberedAll_numberAll parent (position + node.size) rest
      simp only [numberAll, NumberedAll, size_number]
      exact ⟨first, others⟩

end

mutual

theorem map_preorder_number {α : Type} (view : NodeInfo → α)
    (ignores : ∀ info position parent,
      view { info with position := position, parent := parent } = view info)
    (parent : Option Nat) (position : Nat) :
    (node : Node) →
      (number parent position node).preorder.map (fun node => view node.info) =
        node.preorder.map fun node => view node.info
  | mk info children => by
      rw [number, preorder, preorder, List.map_cons, List.map_cons,
        map_preorderOfAll_numberAll view ignores]
      exact congrArg (List.cons · _) (ignores info position parent)

theorem map_preorderOfAll_numberAll {α : Type} (view : NodeInfo → α)
    (ignores : ∀ info position parent,
      view { info with position := position, parent := parent } = view info)
    (parent : Option Nat) (position : Nat) :
    (nodes : List Node) →
      (preorderOfAll (numberAll parent position nodes)).map
          (fun node => view node.info) =
        (preorderOfAll nodes).map fun node => view node.info
  | [] => by simp only [numberAll]
  | node :: rest => by
      simp only [numberAll, preorderOfAll, List.map_append,
        map_preorder_number view ignores, map_preorderOfAll_numberAll view ignores]

end

theorem mapInfo_eq_ok {change : NodeInfo → Except Fault NodeInfo}
    {info : NodeInfo} {below : List Node} {changed : Node}
    (succeeds : mapInfo change (mk info below) = .ok changed) :
    ∃ changedInfo changedBelow, change info = .ok changedInfo ∧
      mapInfoAll change below = .ok changedBelow ∧
      changed = mk changedInfo changedBelow := by
  rw [mapInfo] at succeeds
  split at succeeds
  · cases succeeds
  · split at succeeds
    · cases succeeds
    · rename_i changedInfo first _ changedBelow second
      cases succeeds
      exact ⟨changedInfo, changedBelow, first, second, rfl⟩

theorem mapInfoAll_cons_eq_ok {change : NodeInfo → Except Fault NodeInfo}
    {node : Node} {rest changed : List Node}
    (succeeds : mapInfoAll change (node :: rest) = .ok changed) :
    ∃ first others, mapInfo change node = .ok first ∧
      mapInfoAll change rest = .ok others ∧ changed = first :: others := by
  rw [mapInfoAll] at succeeds
  split at succeeds
  · cases succeeds
  · split at succeeds
    · cases succeeds
    · rename_i first changedFirst _ others changedOthers
      cases succeeds
      exact ⟨first, others, changedFirst, changedOthers, rfl⟩

theorem length_of_mapInfoAll {change : NodeInfo → Except Fault NodeInfo}
    {nodes changed : List Node}
    (succeeds : mapInfoAll change nodes = .ok changed) :
    changed.length = nodes.length := by
  induction nodes generalizing changed with
  | nil =>
      rw [mapInfoAll] at succeeds
      cases succeeds
      rfl
  | cons node rest inductionHypothesis =>
      obtain ⟨first, others, -, changedOthers, rfl⟩ :=
        mapInfoAll_cons_eq_ok succeeds
      rw [List.length_cons, List.length_cons,
        inductionHypothesis changedOthers]

mutual

theorem forall₂_preorder_of_mapInfo
    {change : NodeInfo → Except Fault NodeInfo} :
    (node changed : Node) → mapInfo change node = .ok changed →
      List.Forall₂ (fun before after => change before.info = .ok after.info)
        node.preorder changed.preorder
  | mk info below, changed, succeeds => by
      obtain ⟨changedInfo, changedBelow, first, second, rfl⟩ :=
        mapInfo_eq_ok succeeds
      simp only [preorder]
      exact .cons first
        (forall₂_preorder_of_mapInfoAll below changedBelow second)

theorem forall₂_preorder_of_mapInfoAll
    {change : NodeInfo → Except Fault NodeInfo} :
    (nodes changed : List Node) → mapInfoAll change nodes = .ok changed →
      List.Forall₂ (fun before after => change before.info = .ok after.info)
        (preorderOfAll nodes) (preorderOfAll changed)
  | [], changed, succeeds => by
      rw [mapInfoAll] at succeeds
      cases succeeds
      simp only [preorderOfAll]
      exact .nil
  | node :: rest, changed, succeeds => by
      obtain ⟨first, others, changedFirst, changedOthers, rfl⟩ :=
        mapInfoAll_cons_eq_ok succeeds
      simp only [preorderOfAll]
      exact List.rel_append
        (forall₂_preorder_of_mapInfo node first changedFirst)
        (forall₂_preorder_of_mapInfoAll rest others changedOthers)

end

mutual

theorem size_eq_length_preorder : (node : Node) → node.size = node.preorder.length
  | mk info children => by
      simp only [size, preorder, List.length_cons,
        sizeOfAll_eq_length_preorderOfAll children]

theorem sizeOfAll_eq_length_preorderOfAll : (nodes : List Node) →
    sizeOfAll nodes = (preorderOfAll nodes).length
  | [] => by simp only [sizeOfAll, preorderOfAll, List.length_nil]
  | node :: rest => by
      simp only [sizeOfAll, preorderOfAll, List.length_append,
        size_eq_length_preorder node, sizeOfAll_eq_length_preorderOfAll rest]

end

private theorem size_of_mapInfo {change : NodeInfo → Except Fault NodeInfo}
    {node changed : Node}
    (succeeds : mapInfo change node = .ok changed) :
    changed.size = node.size := by
  have paired := forall₂_preorder_of_mapInfo node changed succeeds
  rw [size_eq_length_preorder, size_eq_length_preorder, paired.length_eq]

mutual

private theorem numbered_of_mapInfo {change : NodeInfo → Except Fault NodeInfo}
    (keeps : ∀ info changed, change info = .ok changed →
      changed.position = info.position ∧ changed.parent = info.parent)
    {parent : Option Nat} {position : Nat} :
    (node changed : Node) → mapInfo change node = .ok changed →
      Numbered parent position node → Numbered parent position changed
  | mk info below, changed, succeeds, numbered => by
      obtain ⟨changedInfo, changedBelow, first, second, rfl⟩ :=
        mapInfo_eq_ok succeeds
      obtain ⟨samePosition, sameParent⟩ := keeps info changedInfo first
      rw [Numbered] at numbered ⊢
      obtain ⟨atPosition, inParent, numberedBelow⟩ := numbered
      exact ⟨samePosition.trans atPosition, sameParent.trans inParent,
        numberedAll_of_mapInfoAll keeps below changedBelow second numberedBelow⟩

theorem numberedAll_of_mapInfoAll {change : NodeInfo → Except Fault NodeInfo}
    (keeps : ∀ info changed, change info = .ok changed →
      changed.position = info.position ∧ changed.parent = info.parent)
    {parent : Option Nat} {position : Nat} :
    (nodes changed : List Node) → mapInfoAll change nodes = .ok changed →
      NumberedAll parent position nodes → NumberedAll parent position changed
  | [], changed, succeeds, _ => by
      rw [mapInfoAll] at succeeds
      cases succeeds
      simp only [NumberedAll]
  | node :: rest, changed, succeeds, numbered => by
      obtain ⟨first, others, changedFirst, changedOthers, rfl⟩ :=
        mapInfoAll_cons_eq_ok succeeds
      rw [NumberedAll] at numbered ⊢
      rw [size_of_mapInfo changedFirst]
      exact ⟨numbered_of_mapInfo keeps node first changedFirst numbered.1,
        numberedAll_of_mapInfoAll keeps rest others changedOthers numbered.2⟩

end

/-! ### What the numbers tell -/

mutual

private theorem positions_preorder_of_numbered {parent : Option Nat}
    {position : Nat} :
    (node : Node) → Numbered parent position node →
      node.preorder.map (fun node => node.info.position) =
        List.range' position node.size
  | mk info children, numbered => by
      rw [Numbered] at numbered
      obtain ⟨atPosition, -, below⟩ := numbered
      rw [preorder, List.map_cons, positions_preorderOfAll_of_numbered children below,
        size, List.range'_succ, Node.info, atPosition]

theorem positions_preorderOfAll_of_numbered {parent : Option Nat}
    {position : Nat} :
    (nodes : List Node) → NumberedAll parent position nodes →
      (preorderOfAll nodes).map (fun node => node.info.position) =
        List.range' position (sizeOfAll nodes)
  | [], _ => by simp only [preorderOfAll, sizeOfAll, List.map_nil, List.range'_zero]
  | node :: rest, numbered => by
      rw [NumberedAll] at numbered
      rw [preorderOfAll, List.map_append,
        positions_preorder_of_numbered node numbered.1,
        positions_preorderOfAll_of_numbered rest numbered.2, sizeOfAll]
      have joined := @List.range'_append position node.size (sizeOfAll rest) 1
      rwa [Nat.one_mul] at joined

end

private theorem numbered_of_mem {parent : Option Nat} {position : Nat}
    {nodes : List Node} {node : Node} (numbered : NumberedAll parent position nodes)
    (member : node ∈ nodes) : Numbered parent node.info.position node := by
  induction nodes generalizing position with
  | nil => cases member
  | cons first rest inductionHypothesis =>
      rw [NumberedAll] at numbered
      cases member with
      | head =>
          have atPosition : node.info.position = position := by
            cases node with
            | mk info children =>
                have this := numbered.1
                rw [Numbered] at this
                exact this.1
          rw [atPosition]
          exact numbered.1
      | tail _ member => exact inductionHypothesis numbered.2 member

theorem parent_of_mem {parent : Option Nat} {position : Nat}
    {nodes : List Node} {node : Node} (numbered : NumberedAll parent position nodes)
    (member : node ∈ nodes) : node.info.parent = parent := by
  have this := numbered_of_mem numbered member
  cases node with
  | mk info children =>
      rw [Numbered] at this
      exact this.2.1

theorem numberedAll_children {parent : Option Nat} {position : Nat} {node : Node}
    (numbered : Numbered parent position node) :
    NumberedAll (some node.info.position) (node.info.position + 1)
      node.children := by
  cases node with
  | mk info children =>
      rw [Numbered] at numbered
      obtain ⟨atPosition, -, below⟩ := numbered
      rw [Node.info, atPosition]
      exact below

theorem exists_numbered_of_mem {parent : Option Nat} {position : Nat}
    {nodes : List Node} {node : Node}
    (numbered : NumberedAll parent position nodes)
    (visited : node ∈ preorderOfAll nodes) :
    ∃ around, Numbered around node.info.position node := by
  rw [← visit_eq_preorderOfAll, mem_visit_iff] at visited
  obtain ⟨start, member, below⟩ := visited
  induction below with
  | refl => exact ⟨parent, numbered_of_mem numbered member⟩
  | tail _ step inductionHypothesis =>
      obtain ⟨around, numberedParent⟩ := inductionHypothesis
      exact ⟨_, numbered_of_mem (numberedAll_children numberedParent) step⟩

/-- Below numbered trees every child carries the number of its parent. -/
theorem parent_of_mem_children {parent : Option Nat} {position : Nat}
    {nodes : List Node} {above child : Node}
    (numbered : NumberedAll parent position nodes)
    (visited : above ∈ preorderOfAll nodes) (isChild : child ∈ above.children) :
    child.info.parent = some above.info.position := by
  obtain ⟨around, numberedAbove⟩ := exists_numbered_of_mem numbered visited
  exact parent_of_mem (numberedAll_children numberedAbove) isChild

open Relation in
/-- A visited node is one of the first ones or a child of a visited node. -/
theorem mem_or_exists_parent {nodes : List Node} {node : Node}
    (visited : node ∈ preorderOfAll nodes) :
    node ∈ nodes ∨ ∃ above ∈ preorderOfAll nodes, node ∈ above.children := by
  simp only [← visit_eq_preorderOfAll, mem_visit_iff] at visited ⊢
  obtain ⟨start, member, below⟩ := visited
  rcases ReflTransGen.cases_tail below with rfl | ⟨above, path, step⟩
  · exact Or.inl member
  · exact Or.inr ⟨above, ⟨start, member, path⟩, step⟩

theorem nodup_positions {parent : Option Nat} {position : Nat}
    {nodes : List Node} (numbered : NumberedAll parent position nodes) :
    ((preorderOfAll nodes).map fun node => node.info.position).Nodup := by
  rw [positions_preorderOfAll_of_numbered nodes numbered]
  exact List.nodup_range'

/-- The children of a node are the nodes that carry its number. -/
theorem mem_children_iff {position : Nat} {nodes : List Node}
    {above node : Node} (numbered : NumberedAll none position nodes)
    (aboveVisited : above ∈ preorderOfAll nodes)
    (visited : node ∈ preorderOfAll nodes) :
    node ∈ above.children ↔ node.info.parent = some above.info.position := by
  constructor
  · intro isChild
    exact parent_of_mem_children numbered aboveVisited isChild
  · intro inAbove
    rcases mem_or_exists_parent visited with isFirst | ⟨other, member, isChild⟩
    · rw [parent_of_mem numbered isFirst] at inAbove
      cases inAbove
    · have inOther := parent_of_mem_children numbered member isChild
      have samePosition : above.info.position = other.info.position :=
        Option.some.inj (inAbove.symm.trans inOther)
      have same : above = other :=
        List.inj_on_of_nodup_map (nodup_positions numbered) aboveVisited member
          samePosition
      rw [same]
      exact isChild

end Node

end ContractAtlas
