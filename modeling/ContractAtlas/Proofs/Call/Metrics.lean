/-
What is counted and collected along traversals.

Syntax trees and call trees are traversed in pre-order, so each counter of a
call tree is that of its root alone and those of its children, added up, and an
external call is either a mutating or a static one.  The internal functions are
mapped to the roots that have them below, as long as the names can be filed.
-/

import Mathlib.Algebra.GroupWithZero.Nat
import ContractAtlas.Proofs.Call.InternalFunctions
import ContractAtlas.Proofs.Source.Traversal

namespace ContractAtlas.CallNode

private theorem countNodes_eq (tree : CallNode) :
    tree.countNodes = 1 + (tree.children.map countNodes).sum := by
  rw [countNodes, walk_eq_cons, visit_eq_flatMap, List.length_cons,
    List.length_flatMap, Nat.add_comm]
  rfl

/-- The nodes of a kind in a tree: the root, if it is one, and those in the
trees of its children. -/
theorem countP_walk (test : CallNode → Bool) (tree : CallNode) :
    tree.walk.countP test =
      (if test tree then 1 else 0) +
        (tree.children.map fun child => child.walk.countP test).sum := by
  rw [walk_eq_cons, visit_eq_flatMap, List.countP_cons, List.countP_flatMap,
    Nat.add_comm]
  rfl

private theorem countExternal_eq_add (tree : CallNode) :
    tree.countExternal = tree.countMutating + tree.countStatic := by
  rw [countExternal, countMutating, countStatic,
    List.countP_eq_countP_filter_add tree.walk isExternal isStatic,
    List.countP_filter, List.countP_filter, Nat.add_comm]

/-- The traversals of syntax trees and of call trees are pre-orders.  The
counters of a call tree are those of its root alone and of its children, and
the external calls are the mutating and the static ones.  If all names that are
met have keys, the internal functions are mapped to the roots that have them
properly below; otherwise the first name without a key is refused. -/
theorem traversals_are_preorders (tree : CallNode) (roots : List CallNode) :
    Traversal.IsPreorder Node.children Node.walk ∧
      Traversal.IsPreorder children walk ∧
      tree.countNodes = 1 + (tree.children.map countNodes).sum ∧
      tree.countExternal =
        (if tree.isExternal then 1 else 0) +
          (tree.children.map countExternal).sum ∧
      tree.countMutating =
        (if tree.isExternal && !tree.isStatic then 1 else 0) +
          (tree.children.map countMutating).sum ∧
      tree.countStatic =
        (if tree.isExternal && tree.isStatic then 1 else 0) +
          (tree.children.map countStatic).sum ∧
      tree.countExternal = tree.countMutating + tree.countStatic ∧
      ((NamesHaveKeys roots ∧
          ∃ table, internalFunctions roots = .ok table ∧
            MapsToRoots roots table) ∨
        (¬ NamesHaveKeys roots ∧
          ∃ name, unkeyed? (innerCalls roots) = some name ∧
            internalFunctions roots = .error (.noKey name.shape))) := by
  refine ⟨Node.isVisit.isPreorder, isVisit.isPreorder, countNodes_eq tree, ?_, ?_,
    ?_, countExternal_eq_add tree, internalFunctions_cases roots⟩
  · exact countP_walk isExternal tree
  · exact countP_walk (fun node => node.isExternal && !node.isStatic) tree
  · exact countP_walk (fun node => node.isExternal && node.isStatic) tree

/-- A function that may change the state. -/
def changingFunction : Callable :=
  { position := 0
    isFunction := true
    kind := .text "function"
    contract := .text "Vault"
    path := .text "vault.sol"
    mutability := .text "nonpayable"
    isStatic := false }

def logCall : CallNode :=
  mk { declaration := some changingFunction, name := .text "log" } []

/-- A root whose name is a list. -/
def listedRoot : CallNode :=
  mk { declaration := some changingFunction
       name := .plain (.arr [.str "pay"]) } [logCall]

/-- The function below the root has a name, but there is no table of it. -/
theorem internalFunctions_refuses_listedRoot :
    listedRoot.ReachesInside logCall ∧
      logCall.name.key? = some (.text "log") ∧
      ¬ ∃ table, internalFunctions [listedRoot] = .ok table ∧
        MapsToRoots [listedRoot] table := by
  have reaches : listedRoot.ReachesInside logCall :=
    ⟨⟨[0], List.cons_ne_nil 0 [], rfl⟩, rfl, rfl⟩
  refine ⟨reaches, rfl, ?_⟩
  rintro ⟨table, collected, -⟩
  rcases internalFunctions_cases [listedRoot] with ⟨keyed, -⟩ | ⟨-, name, -, refused⟩
  · exact (keyed listedRoot List.mem_cons_self logCall reaches).2 rfl
  · rw [collected] at refused
    cases refused

end ContractAtlas.CallNode
