/-
Array types fill their slot.

A normalized type text does not end in a blank, so a text with a dimension at
its end does end in the closing bracket of that dimension.  Whatever reads a
dimension off a type text therefore sees an array type, and the width of an
array type is that of the slot.
-/

import ContractAtlas.Proofs.Text.Split
import ContractAtlas.Solidity.Width

namespace ContractAtlas

namespace Text

/-- The text does not end in a blank. -/
def EndsFilled (text : List Char) : Prop :=
  ∀ c ∈ text.getLast?, isBlank c = false

instance (text : List Char) : Decidable (EndsFilled text) :=
  decidable_of_iff ((text.getLast?.all fun c => !isBlank c) = true) (by
    unfold EndsFilled
    cases text.getLast? with
    | none => simp
    | some last => simp)

private theorem endsFilled_trimEnd (text : List Char) : EndsFilled
    (trimEnd text) := by
  intro c last
  rw [trimEnd, List.getLast?_reverse] at last
  have first := List.head?_dropWhile_not isBlank text.reverse
  rw [Option.mem_def.1 last] at first
  simpa using first

end Text

namespace TypeName

open Text

theorem endsWith_iff (text ending : List Char) :
    endsWith text ending = true ↔ ending <:+ text :=
  dropEnding?_isSome_iff ending text

theorem startsWith_iff {text start : List Char} :
    startsWith text start = true ↔ start <+: text :=
  List.isPrefixOf_iff_prefix

/-! ### Stripping locations leaves no blank at the end -/

private theorem endsFilled_stripSuffix {text : List Char}
    (filled : EndsFilled text)
    (suffix : List Char) : EndsFilled (stripSuffix text suffix) := by
  unfold stripSuffix
  cases dropEnding? suffix text with
  | none => exact filled
  | some rest => exact endsFilled_trimEnd rest

private theorem endsFilled_stripPass {text : List Char}
    (filled : EndsFilled text) :
    EndsFilled (stripPass text) := by
  unfold stripPass
  generalize locationSuffixes = suffixes
  induction suffixes generalizing text with
  | nil => exact filled
  | cons suffix rest inductionHypothesis =>
      exact inductionHypothesis (endsFilled_stripSuffix filled suffix)

private theorem endsFilled_stripLocations {text : List Char}
    (filled : EndsFilled text) : EndsFilled (stripLocations text) := by
  fun_induction stripLocations text with
  | case1 text next shorter inductionHypothesis =>
      exact inductionHypothesis (endsFilled_stripPass filled)
  | case2 text next stable => exact filled

theorem endsFilled_normalize (text : List Char) :
    EndsFilled (normalize text) :=
  endsFilled_stripLocations (endsFilled_trimEnd _)

/-- A text is normal if neither trimming nor a pass changes it. -/
theorem normalize_of_stable {text : List Char} (trimmed : trim text = text)
    (stable : stripPass text = text) : normalize text = text := by
  rw [normalize, trimmed, stripLocations, stable]
  exact if_neg (Nat.lt_irrefl _)

theorem normalize_nil : normalize [] = [] :=
  normalize_of_stable rfl rfl

/-! ### Dimensions belong to arrays -/

private theorem bracket_suffix_of_lastDimension? {text : List Char}
    (filled : EndsFilled text) (found : (lastDimension? text).isSome = true) :
    [']'] <:+ text := by
  cases backwards : text.reverse with
  | nil =>
      rw [lastDimension?, backwards] at found
      cases found
  | cons c rest =>
      have last : text.getLast? = some c := by
        rw [← List.head?_reverse, backwards, List.head?_cons]
      have notBlank := filled c last
      have notLineFeed : c ≠ '\n' := by
        rintro rfl
        exact absurd notBlank (by decide)
      have closing : c = ']' := by
        simp only [lastDimension?, backwards] at found
        split at found
        · rename_i same
          split at same
          · rename_i lineFeed
            exact absurd (List.cons.inj lineFeed).1 notLineFeed
          · exact (List.cons.inj same).1
        · cases found
      rw [← List.reverse_prefix, backwards, closing]
      exact ⟨rest, rfl⟩

/-- Whatever reads a dimension off a type text sees an array. -/
theorem isArray_of_lastDimension? {text : List Char}
    (plain : isMapping (normalize text) = false)
    (found : (lastDimension? (normalize text)).isSome = true) :
    isArray text = true := by
  have closing :=
    bracket_suffix_of_lastDimension? (endsFilled_normalize text) found
  simp only [isArray, plain, (endsWith_iff _ _).2 closing, Bool.not_false,
    Bool.and_self]

theorem isArray_of_staticLength? {text : List Char} {length : Nat}
    (found : staticLength? text = some length) : isArray text = true := by
  simp only [staticLength?] at found
  split at found
  · cases found
  · rename_i plain
    refine isArray_of_lastDimension? (Bool.eq_false_iff.2 plain) ?_
    rw [lengthFrom] at found
    cases dimension : lastDimension? (normalize text) with
    | some _ => rfl
    | none =>
        rw [dimension] at found
        cases found

theorem isArray_of_dimensionFault? {text : List Char} {fault : Fault}
    (found : dimensionFault? text = some fault) : isArray text = true := by
  simp only [dimensionFault?] at found
  split at found
  · cases found
  · rename_i plain
    refine isArray_of_lastDimension? (Bool.eq_false_iff.2 plain) ?_
    rw [overlongDimension?] at found
    cases dimension : lastDimension? (normalize text) with
    | some _ => rfl
    | none =>
        rw [dimension] at found
        cases found

/-! ### The width of an array -/

theorem suffix_of_drop_ne_nil {c : Char} {text : List Char} {count : Nat}
    (ending : [c] <:+ text) (nonempty : text.drop count ≠ []) :
    [c] <:+ text.drop count := by
  obtain ⟨front, rfl⟩ := ending
  have inside : count ≤ front.length := by
    refine Nat.le_of_not_lt ?_
    intro outside
    apply nonempty
    rw [List.drop_eq_nil_iff, List.length_append, List.length_singleton]
    omega
  rw [List.drop_append_of_le_length inside]
  exact List.suffix_append _ _

private theorem allDigits_eq_false_of_bracket {text : List Char}
    (closing : [']'] <:+ text) : allDigits text = false := by
  obtain ⟨front, rfl⟩ := closing
  rw [allDigits, List.all_append]
  have bracket : [']'].all isDigit = false := by decide
  rw [bracket, Bool.and_false]

/-- The digits after a word are not read as a number in an array type. -/
theorem digits_after_eq_nil {word text digits : List Char}
    (closing : [']'] <:+ text) (found : after? word text = some digits) :
    (if allDigits digits = true then digits else []) = [] := by
  unfold after? at found
  split at found
  · cases found
    by_cases empty : text.drop word.length = []
    · rw [empty]
      rfl
    · rw [allDigits_eq_false_of_bracket (suffix_of_drop_ne_nil closing empty)]
      rfl
  · cases found

private theorem bracket_suffix_dropUnsigned {text : List Char}
    (closing : [']'] <:+ text) : [']'] <:+ dropUnsigned text := by
  unfold dropUnsigned
  split
  · rename_i rest
    rcases List.suffix_cons_iff.1 closing with impossible | kept
    · cases impossible
    · exact kept
  · exact closing

/-- Nor are the digits of a fixed-point type. -/
theorem fixedDigits_eq_nil {text rest : List Char}
    (closing : [']'] <:+ text)
    (found : after? "fixed".toList text = some rest) :
    (match rest.dropWhile isDigit with
      | 'x' :: places =>
          if !places.isEmpty && allDigits places then rest.takeWhile isDigit
          else []
      | _ => []) = [] := by
  unfold after? at found
  split at found
  · cases found
    split
    · rename_i places shape
      have marked : ('x' :: places) <:+ text.drop "fixed".toList.length := by
        rw [← shape]
        exact List.dropWhile_suffix isDigit
      have nonempty : text.drop "fixed".toList.length ≠ [] := by
        intro empty
        rw [empty] at marked
        cases List.suffix_nil.1 marked
      have ending : [']'] <:+ 'x' :: places :=
        List.suffix_of_suffix_length_le
          (suffix_of_drop_ne_nil closing nonempty) marked (by simp)
      rcases List.suffix_cons_iff.1 ending with impossible | inPlaces
      · cases impossible
      · rw [allDigits_eq_false_of_bracket inPlaces, Bool.and_false]
        rfl
    · rfl
  · cases found

theorem widthDigits_eq_nil {text : List Char} (closing : [']'] <:+ text) :
    widthDigits text = [] := by
  unfold widthDigits
  cases bytes : after? "bytes".toList text with
  | some digits => exact digits_after_eq_nil closing bytes
  | none =>
      have unsigned := bracket_suffix_dropUnsigned closing
      cases integer : after? "int".toList (dropUnsigned text) with
      | some digits => exact digits_after_eq_nil unsigned integer
      | none =>
          cases fixed : after? "fixed".toList (dropUnsigned text) with
          | some rest => exact fixedDigits_eq_nil unsigned fixed
          | none => rfl

theorem width_of_isArray {type : String} (member : Datum)
    (array : isArray type.toList = true) :
    width type member = .ok slotSize := by
  simp only [isArray, Bool.and_eq_true, Bool.not_eq_true'] at array
  have closing := (endsWith_iff _ _).1 array.2
  have given : type.isEmpty = false := by
    rw [Bool.eq_false_iff]
    intro empty
    rw [String.isEmpty_iff.1 empty, String.toList_empty, normalize_nil] at closing
    cases List.suffix_nil.1 closing
  simp only [width, given, normalWidth?, array.2, Bool.or_true,
    Bool.false_eq_true, if_true, if_false]

/-- An array takes the slot that its data is found from. -/
theorem readWidth_of_isArray {type : String} (member : Datum)
    (array : isArray type.toList = true) :
    readWidth type member = .ok slotSize := by
  have sized := width_of_isArray member array
  simp only [isArray, Bool.and_eq_true, Bool.not_eq_true'] at array
  have short : isOverlong (widthDigits (normalize type.toList)) = false := by
    rw [widthDigits_eq_nil ((endsWith_iff _ _).1 array.2)]
    rfl
  simp only [readWidth, short, sized, Bool.false_eq_true, if_false]

end TypeName

end ContractAtlas
