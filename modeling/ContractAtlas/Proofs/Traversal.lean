/-
Traversals of trees with a stack of pending nodes.

Syntax trees and call trees are traversed in the same way.  In each round the
node on top of the stack is met, and its children are pushed in its place, the
last of them first.  What was met, followed by what a visit of the stack would
meet, stays the same from round to round, so the nodes are met in pre-order and
the stack is empty after as many rounds as there are nodes.  A node is told
from others by its position, and a pre-order meets all positions once, in
lexicographic order.
-/

import Mathlib.Logic.Function.Iterate

namespace ContractAtlas.Traversal

variable {α : Type} {children : α → List α} {visit : List α → List α}

/-- A traversal on its way: the nodes that wait, the next one last, and those
that were met. -/
structure State (α : Type) where
  stack : List α
  met : List α

def State.start (root : α) : State α :=
  { stack := [root], met := [] }

/-- Meets the node on top of the stack and pushes its children. -/
def State.round (children : α → List α) (state : State α) : State α :=
  match state.stack.getLast? with
  | none => state
  | some node =>
      { stack := state.stack.dropLast ++ (children node).reverse
        met := state.met ++ [node] }

/-- The node at a position, which counts the children on the way to it. -/
def nodeAt? (children : α → List α) : List Nat → α → Option α
  | [], node => some node
  | index :: position, node =>
      (children node)[index]?.bind (nodeAt? children position)

/-- The nodes of a tree with their positions, in lexicographic order. -/
structure Ordered (children : α → List α) (root : α)
    (places : List (List Nat × α)) : Prop where
  mem_iff : ∀ position node, (position, node) ∈ places ↔
    nodeAt? children position root = some node
  ascending : (places.map Prod.fst).Pairwise (List.Lex (· < ·))

/-- A traversal that lists the nodes of every tree in pre-order, each of them
once.  Each round meets the next of them, and the stack is empty when all are
met and not before. -/
structure IsPreorder (children : α → List α) (walk : α → List α) : Prop where
  recursive : ∀ root, walk root = root :: (children root).flatMap walk
  met : ∀ root count,
    ((State.round children)^[count] (State.start root)).met =
      (walk root).take count
  ends : ∀ root count,
    ((State.round children)^[count] (State.start root)).stack = [] ↔
      (walk root).length ≤ count
  once : ∀ root, ∃ places, Ordered children root places ∧
    walk root = places.map Prod.snd

/-- Visits of pending nodes: of the first of them, then of its children before
the others. -/
structure IsVisit (children : α → List α) (visit : List α → List α) : Prop where
  nil : visit [] = []
  cons : ∀ node pending,
    visit (node :: pending) = node :: visit (children node ++ pending)

namespace IsVisit

/-! ### Visits -/

theorem induction (isVisit : IsVisit children visit) {motive : List α → Prop}
    (nil : motive [])
    (cons : ∀ node pending, motive (children node ++ pending) →
      motive (node :: pending)) (pending : List α) : motive pending := by
  -- the list of pending nodes may grow, but what its visit meets gets shorter
  induction size : (visit pending).length generalizing pending with
  | zero =>
      cases pending with
      | nil => exact nil
      | cons node pending =>
          rw [isVisit.cons, List.length_cons] at size
          cases size
  | succ size inductionHypothesis =>
      cases pending with
      | nil => exact nil
      | cons node pending =>
          rw [isVisit.cons, List.length_cons] at size
          exact cons node pending (inductionHypothesis _ (Nat.succ.inj size))

theorem append (isVisit : IsVisit children visit) (first second : List α) :
    visit (first ++ second) = visit first ++ visit second := by
  induction first using isVisit.induction with
  | nil => rw [List.nil_append, isVisit.nil, List.nil_append]
  | cons node pending inductionHypothesis =>
      rw [List.cons_append, isVisit.cons, ← List.append_assoc,
        inductionHypothesis, isVisit.cons, List.cons_append]

theorem eq_flatMap (isVisit : IsVisit children visit) (pending : List α) :
    visit pending = pending.flatMap fun node => visit [node] := by
  induction pending with
  | nil => rw [isVisit.nil, List.flatMap_nil]
  | cons node rest inductionHypothesis =>
      rw [← List.singleton_append, isVisit.append, inductionHypothesis,
        List.singleton_append, List.flatMap_cons]

private theorem eq_nil_iff (isVisit : IsVisit children visit)
    {pending : List α} :
    visit pending = [] ↔ pending = [] := by
  cases pending with
  | nil => exact iff_of_true isVisit.nil rfl
  | cons node pending =>
      rw [isVisit.cons]
      exact iff_of_false (List.cons_ne_nil _ _) (List.cons_ne_nil _ _)

/-- Induction on lists of trees: the children of the first tree and the other
trees are lists of trees again. -/
theorem forest_induction (isVisit : IsVisit children visit)
    {motive : List α → Prop} (nil : motive [])
    (cons : ∀ node rest, motive (children node) → motive rest →
      motive (node :: rest)) (forest : List α) : motive forest := by
  induction size : (visit forest).length using Nat.strongRecOn
    generalizing forest with
  | ind size inductionHypothesis =>
      cases forest with
      | nil => exact nil
      | cons node rest =>
          rw [isVisit.cons, isVisit.append, List.length_cons,
            List.length_append] at size
          exact cons node rest (inductionHypothesis _ (by omega) _ rfl)
            (inductionHypothesis _ (by omega) _ rfl)

/-! ### Rounds -/

/-- One round takes the first node of the visit of what waits. -/
theorem round_eq (isVisit : IsVisit children visit) (state : State α) :
    (state.round children).met =
        state.met ++ (visit state.stack.reverse).take 1 ∧
      visit (state.round children).stack.reverse =
        (visit state.stack.reverse).drop 1 := by
  cases waiting : state.stack.reverse with
  | nil =>
      have empty : state.stack = [] := List.reverse_eq_nil_iff.1 waiting
      rw [State.round, empty, List.getLast?_nil, isVisit.nil]
      dsimp only
      rw [waiting, isVisit.nil]
      exact ⟨(List.append_nil state.met).symm, rfl⟩
  | cons node pending =>
      have onTop : state.stack = pending.reverse ++ [node] := by
        rw [← List.reverse_cons, ← waiting, List.reverse_reverse]
      rw [State.round, onTop, List.getLast?_concat, List.dropLast_concat,
        isVisit.cons]
      dsimp only
      rw [List.reverse_append, List.reverse_reverse, List.reverse_reverse]
      exact ⟨rfl, rfl⟩

private theorem rounds_eq (isVisit : IsVisit children visit) (root : α)
    (count : Nat) :
    ((State.round children)^[count] (State.start root)).met =
        (visit [root]).take count ∧
      visit ((State.round children)^[count] (State.start root)).stack.reverse =
        (visit [root]).drop count := by
  induction count with
  | zero => exact ⟨rfl, rfl⟩
  | succ count inductionHypothesis =>
      obtain ⟨met, left⟩ := inductionHypothesis
      rw [Function.iterate_succ_apply', (isVisit.round_eq _).1,
        (isVisit.round_eq _).2, met, left, List.take_add, List.drop_drop]
      exact ⟨rfl, rfl⟩

private theorem stack_eq_nil_iff (isVisit : IsVisit children visit) (root : α)
    (count : Nat) :
    ((State.round children)^[count] (State.start root)).stack = [] ↔
      (visit [root]).length ≤ count := by
  rw [← List.reverse_eq_nil_iff, ← isVisit.eq_nil_iff,
    (isVisit.rounds_eq root count).2, List.drop_eq_nil_iff]

end IsVisit

/-! ### Positions -/

/-- The nodes of several trees, the first of them under a given index, with
their positions in lexicographic order. -/
structure OrderedFrom (children : α → List α) (first : Nat) (forest : List α)
    (places : List (List Nat × α)) : Prop where
  mem_iff : ∀ position node, (position, node) ∈ places ↔
    ∃ index rest root, position = (first + index) :: rest ∧
      forest[index]? = some root ∧ nodeAt? children rest root = some node
  ascending : (places.map Prod.fst).Pairwise (List.Lex (· < ·))

private theorem ordered_of_children {root : α} {places : List (List Nat × α)}
    (below : OrderedFrom children 0 (children root) places) :
    Ordered children root (([], root) :: places) where
  mem_iff position node := by
    rw [List.mem_cons, Prod.mk.injEq, below.mem_iff]
    cases position with
    | nil =>
        rw [nodeAt?, Option.some.injEq]
        constructor
        · rintro (⟨-, same⟩ | ⟨index, rest, child, impossible, -⟩)
          · exact same.symm
          · cases impossible
        · intro same
          exact Or.inl ⟨rfl, same.symm⟩
    | cons index rest =>
        rw [nodeAt?, Option.bind_eq_some_iff]
        constructor
        · rintro (⟨impossible, -⟩ | ⟨other, after, child, same, found, deeper⟩)
          · cases impossible
          · rw [Nat.zero_add, List.cons.injEq] at same
            obtain ⟨rfl, rfl⟩ := same
            exact ⟨child, found, deeper⟩
        · rintro ⟨child, found, deeper⟩
          refine Or.inr ⟨index, rest, child, ?_, found, deeper⟩
          rw [Nat.zero_add]
  ascending := by
    rw [List.map_cons, List.pairwise_cons]
    refine ⟨?_, below.ascending⟩
    intro position member
    obtain ⟨⟨position, node⟩, isPlace, rfl⟩ := List.mem_map.1 member
    obtain ⟨index, rest, -, rfl, -⟩ := (below.mem_iff position node).1 isPlace
    exact .nil

theorem orderedFrom_cons {first : Nat} {root : α} {rest : List α}
    {places later : List (List Nat × α)} (ofRoot : Ordered children root places)
    (ofRest : OrderedFrom children (first + 1) rest later) :
    OrderedFrom children first (root :: rest)
      (places.map (Prod.map (first :: ·) id) ++ later) where
  mem_iff position node := by
    rw [List.mem_append, List.mem_map, ofRest.mem_iff]
    constructor
    · rintro (⟨⟨inner, met⟩, isPlace, same⟩ |
        ⟨index, after, other, same, found, deeper⟩)
      · cases same
        exact ⟨0, inner, root, rfl, rfl, (ofRoot.mem_iff inner met).1 isPlace⟩
      · refine ⟨index + 1, after, other, ?_, found, deeper⟩
        rw [same, Nat.add_right_comm, Nat.add_assoc]
    · rintro ⟨index, after, other, same, found, deeper⟩
      cases index with
      | zero =>
          cases found
          exact Or.inl ⟨(after, node), (ofRoot.mem_iff after node).2 deeper,
            congrArg (·, node) same.symm⟩
      | succ index =>
          refine Or.inr ⟨index, after, other, ?_, found, deeper⟩
          rw [same, Nat.add_right_comm, Nat.add_assoc]
  ascending := by
    rw [List.map_append, List.pairwise_append]
    refine ⟨?_, ofRest.ascending, ?_⟩
    · rw [List.map_map, List.pairwise_map]
      exact (List.pairwise_map.1 ofRoot.ascending).imp .cons
    · intro left inRoot right inRest
      rw [List.map_map] at inRoot
      obtain ⟨inner, -, rfl⟩ := List.mem_map.1 inRoot
      obtain ⟨⟨position, node⟩, isPlace, rfl⟩ := List.mem_map.1 inRest
      obtain ⟨index, after, -, rfl, -⟩ :=
        (ofRest.mem_iff position node).1 isPlace
      exact .rel (by omega)

namespace IsVisit

private theorem exists_orderedFrom (isVisit : IsVisit children visit)
    (first : Nat)
    (forest : List α) :
    ∃ places, OrderedFrom children first forest places ∧
      visit forest = places.map Prod.snd := by
  induction forest using isVisit.forest_induction generalizing first with
  | nil =>
      refine ⟨[], ⟨?_, List.Pairwise.nil⟩, isVisit.nil⟩
      intro position node
      constructor
      · intro member
        cases member
      · rintro ⟨index, rest, root, -, found, -⟩
        cases found
  | cons root rest below later =>
      -- positions below the root start anew, those in the other trees go on
      obtain ⟨placesBelow, orderedBelow, visitBelow⟩ := below 0
      obtain ⟨placesLater, orderedLater, visitLater⟩ := later (first + 1)
      refine ⟨_, orderedFrom_cons (ordered_of_children orderedBelow)
        orderedLater, ?_⟩
      rw [isVisit.cons, isVisit.append, visitBelow, visitLater, List.map_append,
        List.map_map]
      rfl

/-- A visit of the children of a node meets what is properly below it. -/
theorem mem_children_iff (isVisit : IsVisit children visit) {root node : α} :
    node ∈ visit (children root) ↔
      ∃ position, position ≠ [] ∧
        nodeAt? children position root = some node := by
  obtain ⟨places, ordered, visited⟩ :=
    isVisit.exists_orderedFrom 0 (children root)
  rw [visited, List.mem_map]
  constructor
  · rintro ⟨⟨position, node⟩, isPlace, rfl⟩
    obtain ⟨index, rest, child, rfl, found, deeper⟩ :=
      (ordered.mem_iff position node).1 isPlace
    refine ⟨index :: rest, List.cons_ne_nil index rest, ?_⟩
    exact Option.bind_eq_some_iff.2 ⟨child, found, deeper⟩
  · rintro ⟨position, proper, found⟩
    cases position with
    | nil => exact absurd rfl proper
    | cons index rest =>
        obtain ⟨child, isChild, deeper⟩ := Option.bind_eq_some_iff.1 found
        refine ⟨(index :: rest, node), (ordered.mem_iff _ _).2 ?_, rfl⟩
        refine ⟨index, rest, child, ?_, isChild, deeper⟩
        rw [Nat.zero_add]

theorem isPreorder (isVisit : IsVisit children visit) :
    IsPreorder children fun root => visit [root] where
  recursive root := by
    rw [isVisit.cons, List.append_nil, isVisit.eq_flatMap (children root)]
  met root count := (isVisit.rounds_eq root count).1
  ends root count := isVisit.stack_eq_nil_iff root count
  once root := by
    obtain ⟨places, ordered, visited⟩ :=
      isVisit.exists_orderedFrom 0 (children root)
    refine ⟨_, ordered_of_children ordered, ?_⟩
    rw [isVisit.cons, List.append_nil, visited]
    rfl

end IsVisit

end ContractAtlas.Traversal
