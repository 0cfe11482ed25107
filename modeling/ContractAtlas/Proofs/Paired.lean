/-
Lists that stand for each other.

Many passes turn one list into another item by item: trees into units, sites
into the nodes of a call tree, functions into the entries of a report.  What
holds between them is a relation between the items in the same place, and these
are the facts about such pairs that are used everywhere.
-/

import Mathlib.Data.List.Forall2

namespace ContractAtlas

variable {α β γ : Type} {related : α → β → Prop} {left : List α}
  {right : List β}

theorem exists_right_of_forall₂ (paired : List.Forall₂ related left right)
    {first : α} (member : first ∈ left) :
    ∃ second ∈ right, related first second := by
  induction paired with
  | nil => cases member
  | cons isRelated _ inductionHypothesis =>
      rcases List.mem_cons.1 member with rfl | later
      · exact ⟨_, List.mem_cons_self, isRelated⟩
      · obtain ⟨second, isSecond, found⟩ := inductionHypothesis later
        exact ⟨second, List.mem_cons_of_mem _ isSecond, found⟩

theorem exists_left_of_forall₂ (paired : List.Forall₂ related left right)
    {second : β} (member : second ∈ right) :
    ∃ first ∈ left, related first second :=
  exists_right_of_forall₂ paired.flip member

theorem forall₂_imp_of_mem {implied : α → β → Prop}
    (paired : List.Forall₂ related left right)
    (implies : ∀ first ∈ left, ∀ second, related first second →
      implied first second) :
    List.Forall₂ implied left right :=
  ((List.forall₂_and_left _ _).2 ⟨fun _ member => member, paired⟩).imp
    fun first second both => implies first both.1 second both.2

/-- The items in the middle are at hand when two pairings are joined. -/
theorem forall₂_comp {next : β → γ → Prop} {joined : α → γ → Prop}
    {last : List γ} (paired : List.Forall₂ related left right)
    (further : List.Forall₂ next right last)
    (joins : ∀ value ∈ right, ∀ before after, related before value →
      next value after → joined before after) :
    List.Forall₂ joined left last := by
  induction paired generalizing last with
  | nil =>
      rw [List.forall₂_nil_left_iff.1 further]
      exact .nil
  | cons isRelated later inductionHypothesis =>
      obtain ⟨after, others, isNext, furtherLater, rfl⟩ :=
        List.forall₂_cons_left_iff.1 further
      obtain ⟨own, joinsLater⟩ := List.forall_mem_cons.1 joins
      exact .cons (own _ _ isRelated isNext)
        (inductionHypothesis furtherLater joinsLater)

theorem forall₂_eq_iff {f : α → γ} {g : β → γ} :
    List.Forall₂ (fun first second => f first = g second) left right ↔
      left.map f = right.map g := by
  rw [← List.forall₂_eq_eq_eq, List.forall₂_map_left_iff,
    List.forall₂_map_right_iff]

theorem filterMap_eq_map {position : α → Option γ} {place : β → γ}
    (paired : List.Forall₂ related left right)
    (located : ∀ value other, related value other →
      position value = some (place other)) :
    left.filterMap position = right.map place := by
  induction paired with
  | nil => rfl
  | cons isRelated later inductionHypothesis =>
      rw [List.filterMap_cons_some (located _ _ isRelated),
        inductionHypothesis, List.map_cons]

end ContractAtlas
