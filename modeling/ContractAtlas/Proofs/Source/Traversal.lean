/-
What the traversals of a syntax tree meet.

The walk from a node is its pre-order.  Below a node it meets exactly the nodes
that are reached from it in one or more steps to a child, and the expression
that names the target of a call is one of them.
-/

import Mathlib.Logic.Relation
import ContractAtlas.Proofs.Traversal
import ContractAtlas.Source.Attributes

namespace ContractAtlas

namespace Node

open Relation

theorem isVisit : Traversal.IsVisit children visit where
  nil := by rw [visit]
  cons node pending := by rw [visit]

theorem preorder_eq (node : Node) :
    node.preorder = node :: preorderOfAll node.children := by
  cases node with
  | mk info below => simp only [preorder, children]

theorem preorderOfAll_append (left right : List Node) :
    preorderOfAll (left ++ right) = preorderOfAll left ++ preorderOfAll right := by
  induction left with
  | nil => simp only [List.nil_append, preorderOfAll]
  | cons node rest inductionHypothesis =>
      simp only [List.cons_append, preorderOfAll, inductionHypothesis,
        List.append_assoc]

theorem visit_eq_preorderOfAll (pending : List Node) :
    visit pending = preorderOfAll pending := by
  fun_induction visit pending with
  | case1 => simp only [preorderOfAll]
  | case2 node pending inductionHypothesis =>
      rw [inductionHypothesis, preorderOfAll_append, preorderOfAll, preorder_eq,
        List.cons_append]

theorem walk_eq_preorder (node : Node) : node.walk = node.preorder := by
  rw [walk, visit_eq_preorderOfAll, preorderOfAll, preorderOfAll,
    List.append_nil]

/-- The second node is a child of the first one. -/
def HasChild (parent child : Node) : Prop :=
  child ∈ parent.children

/-- A visit of pending nodes meets them and all nodes below them. -/
theorem mem_visit_iff {pending : List Node} {node : Node} :
    node ∈ visit pending ↔
      ∃ start ∈ pending, ReflTransGen HasChild start node := by
  fun_induction visit pending with
  | case1 =>
      constructor
      · intro member
        cases member
      · rintro ⟨start, member, -⟩
        cases member
  | case2 first pending inductionHypothesis =>
      rw [List.mem_cons, inductionHypothesis]
      constructor
      · rintro (rfl | ⟨start, member, below⟩)
        · exact ⟨node, List.mem_cons_self, .refl⟩
        · rcases List.mem_append.1 member with child | later
          · exact ⟨first, List.mem_cons_self, .head child below⟩
          · exact ⟨start, List.mem_cons_of_mem first later, below⟩
      · rintro ⟨start, member, below⟩
        rcases List.mem_cons.1 member with rfl | later
        · rcases ReflTransGen.cases_head below with rfl | ⟨child, isChild, rest⟩
          · exact Or.inl rfl
          · exact Or.inr ⟨child, List.mem_append_left pending isChild, rest⟩
        · exact Or.inr ⟨start, List.mem_append_right first.children later, below⟩

theorem mem_walk_iff {start node : Node} :
    node ∈ start.walk ↔ ReflTransGen HasChild start node := by
  rw [walk, mem_visit_iff]
  constructor
  · rintro ⟨other, member, below⟩
    rw [List.mem_singleton.1 member] at below
    exact below
  · intro below
    exact ⟨start, List.mem_singleton_self start, below⟩

/-- The descendants of a node are the nodes that are properly below it. -/
theorem mem_descendants_iff {start node : Node} :
    node ∈ start.descendants ↔ TransGen HasChild start node := by
  rw [descendants, mem_visit_iff, TransGen.head'_iff]
  rfl

theorem hasChild_of_field? {key : String} {node child : Node}
    (found : node.field? key = some child) : HasChild node child :=
  List.mem_of_find?_eq_some found

/-! ### The callee of a call -/

theorem unwrapOptions_of_options {expression : Node}
    (isOptions : expression.kind = .functionCallOptions) :
    expression.unwrapOptions = expression.expression?.bind unwrapOptions := by
  rw [unwrapOptions, isOptions]
  dsimp only
  split
  · rename_i inner wrapped
    rw [wrapped, Option.bind_some]
  · rename_i bare
    rw [bare, Option.bind_none]

theorem unwrapOptions_of_call {expression : Node}
    (isCall : expression.kind = .functionCall) :
    expression.unwrapOptions =
      expression.expression?.bind fun access =>
        if access.isLegacyOption then access.expression?.bind unwrapOptions
        else none := by
  rw [unwrapOptions, isCall]
  dsimp only
  split
  · rename_i access called
    rw [called, Option.bind_some]
    split
    · split
      · rename_i inner wrapped
        rw [wrapped, Option.bind_some]
      · rename_i bare
        rw [bare, Option.bind_none]
    · rfl
  · rename_i bare
    rw [bare, Option.bind_none]

theorem unwrapOptions_of_plain {expression : Node}
    (noOptions : expression.kind ≠ .functionCallOptions)
    (noCall : expression.kind ≠ .functionCall) :
    expression.unwrapOptions =
      if expression.kind ∈ [.memberAccess, .identifier, .identifierPath] then
        some expression
      else none := by
  rw [unwrapOptions]
  cases isKind : expression.kind with
  | functionCallOptions => exact absurd isKind noOptions
  | functionCall => exact absurd isKind noCall
  | _ => rfl

theorem callee?_of_memberAccess {call access : Node}
    (called : call.expression? = some access)
    (isAccess : access.kind = .memberAccess) : call.callee? = some access := by
  have noOptions : access.kind ≠ .functionCallOptions := by simp [isAccess]
  have noCall : access.kind ≠ .functionCall := by simp [isAccess]
  rw [callee?, called, Option.bind_some, unwrapOptions_of_plain noOptions noCall,
    isAccess]
  rfl

/-- Below its options, the expression of a call is still the same tree. -/
theorem below_of_unwrapOptions {expression callee : Node}
    (found : expression.unwrapOptions = some callee) :
    ReflTransGen HasChild expression callee := by
  fun_induction unwrapOptions expression with
  | case1 expression isOptions inner wrapped inductionHypothesis =>
      exact .head (hasChild_of_field? wrapped) (inductionHypothesis found)
  | case3 expression isCall access called legacy inner wrapped
      inductionHypothesis =>
      have viaAccess : ReflTransGen HasChild access callee :=
        .head (hasChild_of_field? wrapped) (inductionHypothesis found)
      exact .head (hasChild_of_field? called) viaAccess
  | case7 | case8 | case9 =>
      rw [Option.some.inj found]
  | case2 | case4 | case5 | case6 | case10 => cases found

theorem below_of_callee? {call callee : Node}
    (found : call.callee? = some callee) :
    ReflTransGen HasChild call callee := by
  obtain ⟨expression, called, unwrapped⟩ := Option.bind_eq_some_iff.1 found
  exact .head (hasChild_of_field? called) (below_of_unwrapOptions unwrapped)

end Node

end ContractAtlas
