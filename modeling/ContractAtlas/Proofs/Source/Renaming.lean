/-
Renumbered trees.

The numbers of nodes tell nodes apart and say what references stand for, but
which numbers they are plays no part.  When all numbers are renamed, in the
trees and in the references, each node still refers to the same node, and a
view of a tree that shows references by the ids of nodes stays as it is.
-/

import ContractAtlas.Proofs.Source.Traversal
import ContractAtlas.Source.Compilation

namespace ContractAtlas

def NodeInfo.rename (change : Nat → Nat) (info : NodeInfo) : NodeInfo :=
  { info with
    position := change info.position
    parent := info.parent.map change
    target := info.target.map change
    bases := info.bases.map change }

namespace Node

mutual

def rename (change : Nat → Nat) : Node → Node
  | mk info children => mk (info.rename change) (renameAll change children)

def renameAll (change : Nat → Nat) : List Node → List Node
  | [] => []
  | node :: rest => rename change node :: renameAll change rest

end

section

variable {change : Nat → Nat}

private theorem renameAll_eq_map (nodes : List Node) :
    renameAll change nodes = nodes.map (rename change) := by
  induction nodes with
  | nil => rw [renameAll, List.map_nil]
  | cons node rest inductionHypothesis =>
      rw [renameAll, inductionHypothesis, List.map_cons]

theorem info_rename (node : Node) :
    (node.rename change).info = node.info.rename change := by
  cases node with
  | mk info below => rw [rename]; rfl

private theorem children_rename (node : Node) :
    (node.rename change).children = node.children.map (rename change) := by
  cases node with
  | mk info below => rw [rename, ← renameAll_eq_map]; rfl

private theorem kind_rename (node : Node) :
    (node.rename change).kind = node.kind := by
  rw [kind, info_rename]
  rfl

private theorem attribute?_rename (key : String) (node : Node) :
    (node.rename change).attribute? key = node.attribute? key := by
  rw [attribute?, info_rename]
  rfl

private theorem id_rename (node : Node) :
    (node.rename change).id = node.id := by
  rw [id, attributeOr, attribute?_rename]
  rfl

mutual

theorem preorder_rename : (node : Node) →
    (node.rename change).preorder = node.preorder.map (rename change)
  | mk info below => by
      rw [rename, preorder, preorder, preorderOfAll_renameAll below,
        List.map_cons, rename]

private theorem preorderOfAll_renameAll : (nodes : List Node) →
    preorderOfAll (renameAll change nodes) =
      (preorderOfAll nodes).map (rename change)
  | [] => by rw [renameAll, preorderOfAll, List.map_nil]
  | node :: rest => by
      rw [renameAll, preorderOfAll, preorderOfAll, preorder_rename node,
        preorderOfAll_renameAll rest, List.map_append]

end

private theorem field?_rename (key : String) (node : Node) :
    (node.rename change).field? key = (node.field? key).map (rename change) := by
  rw [field?, children_rename, List.find?_map, field?]
  congr 2
  funext child
  simp only [Function.comp_apply, info_rename]
  rfl

private theorem isLegacyOption_rename (access : Node) :
    (access.rename change).isLegacyOption = access.isLegacyOption := by
  rw [isLegacyOption, isLegacyOption, kind_rename, memberName, memberName,
    textOr, textOr, attributeOr, attributeOr, attribute?_rename, info_rename,
    NodeInfo.rename, Option.isNone_map]

private theorem unwrapOptions_rename (expression : Node) :
    (expression.rename change).unwrapOptions =
      expression.unwrapOptions.map (rename change) := by
  induction size : expression.size using Nat.strongRecOn
    generalizing expression with
  | ind _ inductionHypothesis =>
      subst size
      have below (node : Node) (smaller : node.size ≤ expression.size) :
          ((node.rename change).expression?.bind unwrapOptions) =
            (node.expression?.bind unwrapOptions).map (rename change) := by
        rw [expression?, expression?, field?_rename]
        cases found : node.field? "expression" with
        | none => rfl
        | some inner =>
            have shrinks := size_lt_of_field? found
            exact inductionHypothesis inner.size (by omega) inner rfl
      by_cases isOptions : expression.kind = .functionCallOptions
      · have renamed := isOptions
        rw [← kind_rename] at renamed
        rw [unwrapOptions_of_options isOptions,
          unwrapOptions_of_options renamed]
        exact below expression (Nat.le_refl _)
      · by_cases isCall : expression.kind = .functionCall
        · have renamed := isCall
          rw [← kind_rename] at renamed
          rw [unwrapOptions_of_call isCall, unwrapOptions_of_call renamed,
            expression?, expression?, field?_rename]
          cases found : expression.field? "expression" with
          | none => rfl
          | some access =>
              have shrinks := size_lt_of_field? found
              simp only [Option.map_some, Option.bind_some,
                isLegacyOption_rename]
              split
              · exact below access (Nat.le_of_lt shrinks)
              · rfl
        · rw [unwrapOptions_of_plain isOptions isCall, unwrapOptions_of_plain
            (by rw [kind_rename]; exact isOptions)
            (by rw [kind_rename]; exact isCall), kind_rename]
          split
          · rfl
          · rfl

private theorem referencedPosition?_rename (node : Node) :
    (node.rename change).referencedPosition? =
      node.referencedPosition?.map change := by
  rw [referencedPosition?, referencedPosition?, kind_rename]
  split
  · rw [callee?, callee?, expression?, expression?, field?_rename]
    cases node.field? "expression" with
    | none => rfl
    | some expression =>
        simp only [Option.map_some, Option.bind_some, unwrapOptions_rename]
        cases expression.unwrapOptions with
        | none => rfl
        | some callee =>
            simp only [Option.map_some, Option.bind_some, info_rename]
            rfl
  · rw [info_rename]
    rfl

end

end Node

/-! ### Views -/

/-- A node with the ids of the nodes that it refers to. -/
inductive NodeView where
  | mk (field : String) (listed : Bool) (kind : Kind)
      (attributes : List (String × Json)) (reference : Option Json)
      (bases : List Json) (children : List NodeView)

namespace Compilation

mutual

/-- The view of a node: its declaration and its base contracts are shown by
their ids. -/
def view (compilation : Compilation) : Node → NodeView
  | .mk info children =>
      .mk info.field info.listed info.kind info.attributes
        ((compilation.referencedNode? (.mk info children)).map Node.id)
        ((compilation.linearizedBases (.mk info children)).map Node.id)
        (viewAll compilation children)

def viewAll (compilation : Compilation) : List Node → List NodeView
  | [] => []
  | node :: rest => view compilation node :: viewAll compilation rest

end

/-- The nodes of one compilation are those of the other under new numbers. -/
def RenamesTo (first second : Compilation) (change : Nat → Nat) : Prop :=
  ∀ position, second.nodeAt? (change position) =
    (first.nodeAt? position).map (Node.rename change)

private theorem map_node_place? (compilation : Compilation) (position : Nat) :
    (compilation.place? position).map compilation.node =
      compilation.nodeAt? position := by
  rw [place?, nodeAt?]
  split
  · rename_i inside
    rw [Array.getElem?_eq_getElem inside]
    rfl
  · rename_i outside
    rw [Array.getElem?_eq_none (Nat.le_of_not_lt outside)]
    rfl

private theorem referencedNode?_eq (compilation : Compilation) (node : Node) :
    compilation.referencedNode? node =
      node.referencedPosition?.bind compilation.nodeAt? := by
  rw [referencedNode?, referenced?]
  cases node.referencedPosition? with
  | none => rfl
  | some position => exact compilation.map_node_place? position

section

variable {first second : Compilation} {change : Nat → Nat}

theorem RenamesTo.map_id (renames : first.RenamesTo second change)
    (position : Nat) :
    (second.nodeAt? (change position)).map Node.id =
      (first.nodeAt? position).map Node.id := by
  rw [renames position, Option.map_map]
  congr 1
  funext node
  exact Node.id_rename node

theorem RenamesTo.reference (renames : first.RenamesTo second change)
    (node : Node) :
    (second.referencedNode? (node.rename change)).map Node.id =
      (first.referencedNode? node).map Node.id := by
  rw [referencedNode?_eq, referencedNode?_eq, Node.referencedPosition?_rename]
  cases node.referencedPosition? with
  | none => rfl
  | some position => exact renames.map_id position

theorem RenamesTo.bases (renames : first.RenamesTo second change)
    (node : Node) :
    (second.linearizedBases (node.rename change)).map Node.id =
      (first.linearizedBases node).map Node.id := by
  rw [linearizedBases, linearizedBases, Node.info_rename, NodeInfo.rename,
    List.filterMap_map, List.map_filterMap, List.map_filterMap]
  congr 1
  funext position
  exact renames.map_id position

mutual

/-- Renaming does not change the view. -/
theorem RenamesTo.view_rename (renames : first.RenamesTo second change) :
    (node : Node) → second.view (node.rename change) = first.view node
  | .mk info children => by
      have sameReference := renames.reference (.mk info children)
      have sameBases := renames.bases (.mk info children)
      rw [Node.rename] at sameReference sameBases ⊢
      rw [view, view, sameReference, sameBases,
        renames.viewAll_renameAll children]
      rfl

private theorem RenamesTo.viewAll_renameAll
    (renames : first.RenamesTo second change) :
    (nodes : List Node) →
      second.viewAll (Node.renameAll change nodes) = first.viewAll nodes
  | [] => by rw [Node.renameAll, viewAll, viewAll]
  | node :: rest => by
      rw [Node.renameAll, viewAll, viewAll, renames.view_rename node,
        renames.viewAll_renameAll rest]

end

end

end Compilation

end ContractAtlas
