/-
Walks of call trees.

A visit takes the pending trees one after the other, so a visit of several
lists of trees is the visits of each of them, and a walk is the root and a visit
of its children.
-/

import ContractAtlas.Call.Tree
import ContractAtlas.Proofs.Traversal

namespace ContractAtlas.CallNode

theorem isVisit : Traversal.IsVisit children visit where
  nil := by rw [visit]
  cons node pending := by rw [visit]

theorem visit_append (first second : List CallNode) :
    visit (first ++ second) = visit first ++ visit second :=
  isVisit.append first second

theorem walk_eq_cons (node : CallNode) :
    node.walk = node :: visit node.children := by
  rw [walk, visit, List.append_nil]

theorem visit_cons (node : CallNode) (pending : List CallNode) :
    visit (node :: pending) = node.walk ++ visit pending := by
  rw [← List.singleton_append, visit_append, walk]

theorem visit_eq_flatMap (pending : List CallNode) :
    visit pending = pending.flatMap walk :=
  isVisit.eq_flatMap pending

theorem mem_walk_of_nodeAt? {root node : CallNode} {position : List Nat}
    (found : Traversal.nodeAt? children position root = some node) :
    node ∈ root.walk := by
  rw [walk_eq_cons, List.mem_cons, isVisit.mem_children_iff]
  cases position with
  | nil => exact Or.inl (Option.some.inj found).symm
  | cons index position =>
      exact Or.inr ⟨_, List.cons_ne_nil index position, found⟩

end ContractAtlas.CallNode
