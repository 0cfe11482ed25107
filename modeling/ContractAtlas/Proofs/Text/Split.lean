/-
Texts cut at their ends, at separators and where a run ends.

A text is cut at every separator, so the pieces of a text with a separator in
the middle are those before it and those behind it.  Pieces without separators
are found again in the text that they were put together to.
-/

import ContractAtlas.Text.Blank
import ContractAtlas.Text.Split

namespace ContractAtlas.Text

/-! ### Endings -/

theorem dropEnding?_eq_some_iff {ending text rest : List Char} :
    dropEnding? ending text = some rest ↔ text = rest ++ ending := by
  constructor
  · intro found
    unfold dropEnding? at found
    split at found
    · cases found
    · split at found
      · next same =>
          cases found
          rw [← same, List.length_drop, Nat.sub_sub_self (by omega),
            List.take_append_drop]
      · cases found
  · intro same
    rw [dropEnding?, same, List.length_append, if_neg (by omega),
      Nat.add_sub_cancel, List.drop_left, if_pos rfl, List.take_left]

theorem dropEnding?_isSome_iff (ending text : List Char) :
    (dropEnding? ending text).isSome = true ↔ ending <:+ text := by
  rw [Option.isSome_iff_exists]
  constructor
  · rintro ⟨rest, found⟩
    exact ⟨rest, (dropEnding?_eq_some_iff.1 found).symm⟩
  · rintro ⟨rest, whole⟩
    exact ⟨rest, dropEnding?_eq_some_iff.2 whole.symm⟩

/-! ### Runs -/

/-- A run goes up to the first item that does not belong to it. -/
theorem span_append {α : Type} {belongs : α → Bool} {run rest : List α}
    (inside : ∀ item ∈ run, belongs item = true)
    (ends : ∀ item ∈ rest.head?, belongs item = false) :
    (run ++ rest).takeWhile belongs = run ∧
      (run ++ rest).dropWhile belongs = rest := by
  rw [List.takeWhile_append_of_pos inside, List.dropWhile_append_of_pos inside]
  cases rest with
  | nil => exact ⟨List.append_nil run, rfl⟩
  | cons item more =>
      have outside : ¬ belongs item = true := by
        rw [ends item rfl]
        exact Bool.false_ne_true
      rw [List.takeWhile_cons_of_neg outside, List.dropWhile_cons_of_neg outside]
      exact ⟨List.append_nil run, rfl⟩

/-! ### Separators -/

variable {separator : Char}

/-- The pieces are those of the library, whose lemmas hold of them. -/
theorem splitOn_eq (separator : Char) (text : List Char) :
    splitOn separator text = text.splitOn separator := by
  induction text with
  | nil => rw [splitOn, List.splitOn_nil]
  | cons c rest inductionHypothesis =>
      rw [splitOn, inductionHypothesis, List.splitOn_cons_eq_if_modifyHead]
      by_cases same : c = separator
      · rw [if_pos same, if_pos (beq_iff_eq.2 same)]
      · rw [if_neg same, if_neg (mt beq_iff_eq.1 same)]
        cases pieces : rest.splitOn separator with
        | nil => exact absurd pieces (List.splitOn_ne_nil separator rest)
        | cons piece others => rfl

theorem splitOn_of_notMem {text : List Char} (absent : separator ∉ text) :
    splitOn separator text = [text] := by
  rw [splitOn_eq, List.splitOn_eq_singleton absent]

theorem splitOn_append {text : List Char} (absent : separator ∉ text)
    (rest : List Char) :
    splitOn separator (text ++ separator :: rest) =
      text :: splitOn separator rest := by
  rw [splitOn_eq, splitOn_eq, List.splitOn_append_cons_self_of_not_mem absent]

theorem notMem_of_mem_splitOn {text piece : List Char}
    (member : piece ∈ splitOn separator text) : separator ∉ piece := by
  induction text generalizing piece with
  | nil =>
      rw [splitOn, List.mem_singleton] at member
      rw [member]
      exact List.not_mem_nil
  | cons c rest inductionHypothesis =>
      rw [splitOn] at member
      split at member
      · rcases List.mem_cons.1 member with rfl | later
        · exact List.not_mem_nil
        · exact inductionHypothesis later
      · next other =>
          cases pieces : splitOn separator rest with
          | nil =>
              rw [pieces, pushFirst, List.mem_singleton] at member
              rw [member, List.mem_singleton]
              exact Ne.symm other
          | cons first others =>
              rw [pieces, pushFirst] at member
              rw [pieces] at inductionHypothesis
              rcases List.mem_cons.1 member with rfl | later
              · rw [List.mem_cons, not_or]
                exact ⟨Ne.symm other, inductionHypothesis List.mem_cons_self⟩
              · exact inductionHypothesis (List.mem_cons_of_mem first later)

end ContractAtlas.Text
