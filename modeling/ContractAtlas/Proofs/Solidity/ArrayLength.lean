/-
The length of a fixed-size array.

An array type is its element type with dimensions behind it, each a decimal
number in brackets, and the product of the dimensions is the length.  Only the
very start of the text decides whether it is a mapping, so an array of mappings
is taken for a mapping and has no length.
-/

import ContractAtlas.Proofs.Solidity.Dimensions

namespace ContractAtlas.TypeName

open Text

/-- The type text of an array, with the outermost dimension last. -/
def arrayText (element : List Char) (dimensions : List Nat) : List Char :=
  element ++ dimensions.flatMap fun length => bracketed (Nat.toDigits 10 length)

/-- The static dimensions of these lengths. -/
def writtenAll (lengths : List Nat) : List Dimension :=
  lengths.map (Dimension.written 0)

private theorem arrayText_eq (element : List Char) (lengths : List Nat) :
    arrayText element lengths = dimensioned element (writtenAll lengths) := by
  rw [arrayText, dimensioned, writtenAll, List.flatMap_map]
  rfl

private theorem isStatic_of_mem_writtenAll {lengths : List Nat}
    {dimension : Dimension}
    (member : dimension ∈ writtenAll lengths) : dimension.IsStatic := by
  obtain ⟨length, -, rfl⟩ := List.mem_map.1 member
  exact Dimension.isStatic_written 0 length

private theorem map_length_writtenAll (lengths : List Nat) :
    (writtenAll lengths).map Dimension.length = lengths := by
  rw [writtenAll, List.map_map]
  exact (List.map_congr_left fun length _ =>
    Dimension.length_written 0 length).trans (List.map_id lengths)

/-- The length of an array is the product of its dimensions, unless its element
type starts as a mapping does. -/
theorem staticLength?_of_arrayText {text element : List Char}
    {dimensions : List Nat}
    (normal : normalize text = arrayText element dimensions)
    (plain : isMapping element = false) (dynamic : ¬ EndsStatic element)
    (given : dimensions ≠ []) (positive : ∀ length ∈ dimensions, 1 ≤ length) :
    staticLength? text = some dimensions.prod := by
  have run : staticRun (writtenAll dimensions) = writtenAll dimensions := by
    rw [staticRun, List.rtakeWhile_eq_self_iff]
    intro dimension member
    exact decide_eq_true (isStatic_of_mem_writtenAll member)
  have filled : (writtenAll dimensions).isEmpty = false := by
    rw [List.isEmpty_eq_false_iff, writtenAll, Ne, List.map_eq_nil_iff]
    exact given
  have allPositive : ∀ dimension ∈ writtenAll dimensions,
      dimension.IsStatic → 1 ≤ dimension.length := by
    intro dimension member _
    obtain ⟨length, isLength, rfl⟩ := List.mem_map.1 member
    rw [Dimension.length_written]
    exact positive length isLength
  rw [staticLength?, normal, arrayText_eq, isMapping_dimensioned, plain,
    if_neg Bool.false_ne_true,
    lengthFrom_none_dimensioned dynamic allPositive, run, runLength, filled,
    if_neg Bool.false_ne_true, map_length_writtenAll]

theorem staticLength?_of_mapping {text element : List Char}
    {dimensions : List Nat}
    (normal : normalize text = arrayText element dimensions)
    (mapping : isMapping element = true) : staticLength? text = none := by
  rw [staticLength?, normal, arrayText_eq, isMapping_dimensioned, mapping,
    if_pos rfl]

end ContractAtlas.TypeName
