/-
Paths through a compilation that visit no place twice.

A search that only goes on to places off its path ends, since the number of
places off the path falls with each step.
-/

import ContractAtlas.Source.Compilation

namespace ContractAtlas.Compilation

/-- Number of places that are not on a path. -/
def unvisited (compilation : Compilation) (path : List compilation.Place) :
    Nat :=
  (List.finRange compilation.nodes.size).countP fun place => place ∉ path

private theorem countP_lt_countP {α : Type} {first second : α → Bool}
    {element : α} {elements : List α} (member : element ∈ elements)
    (implied : ∀ other, first other = true → second other = true)
    (left : first element = false) (right : second element = true) :
    elements.countP first < elements.countP second := by
  induction elements with
  | nil => cases member
  | cons head rest inductionHypothesis =>
      have mono : rest.countP first ≤ rest.countP second :=
        List.countP_mono_left fun other _ => implied other
      cases member with
      | head =>
          rw [List.countP_cons_of_neg (by simp [left]),
            List.countP_cons_of_pos right]
          omega
      | tail _ member =>
          have step := inductionHypothesis member
          by_cases holds : first head = true
          · rw [List.countP_cons_of_pos holds,
              List.countP_cons_of_pos (implied head holds)]
            omega
          · rw [List.countP_cons_of_neg holds, List.countP_cons]
            omega

theorem unvisited_cons_lt (compilation : Compilation)
    {path : List compilation.Place} {place : compilation.Place}
    (fresh : place ∉ path) :
    compilation.unvisited (place :: path) < compilation.unvisited path := by
  unfold unvisited
  refine countP_lt_countP (List.mem_finRange place) ?_ ?_ ?_
  · intro other
    simp only [List.mem_cons, decide_eq_true_eq]
    intro outside inside
    exact outside (Or.inr inside)
  · simp
  · simpa using fresh

end ContractAtlas.Compilation
