/-
Dimensions of array types.

A dimension is a row of decimal digits in brackets, and an empty row makes the
array dynamic.  The dimensions are read off the end of a type text one by one,
up to the first dynamic one or to the element type, and their lengths are
multiplied.  So the length of an array is the product of the longest run of
static dimensions at the end of its type, unless one of them has more digits
than a number may have.
-/

import Mathlib.Algebra.BigOperators.Group.List.Basic
import Mathlib.Data.List.DropRight
import Mathlib.Data.List.Induction
import Mathlib.Data.List.TakeWhile
import ContractAtlas.Proofs.Solidity.Normal
import ContractAtlas.Proofs.Text.Numerals

namespace ContractAtlas.TypeName

open Text

/-! ### Texts of dimensions -/

/-- A dimension with these digits. -/
def bracketed (digits : List Char) : List Char :=
  '[' :: (digits ++ [']'])

/-- The text ends in a dimension that is not empty, perhaps before a line
feed. -/
def EndsStatic (text : List Char) : Prop :=
  ∃ front digits, digits ≠ [] ∧ (∀ c ∈ digits, isDigit c = true) ∧
    (text = front ++ bracketed digits ∨
      text = front ++ bracketed digits ++ ['\n'])

theorem not_endsStatic {text : List Char}
    (notBracket : text.getLast? ≠ some ']')
    (notLineFeed : text.getLast? ≠ some '\n') : ¬ EndsStatic text := by
  rintro ⟨front, digits, -, -, plain | lineFeed⟩
  · apply notBracket
    have closed : text = (front ++ '[' :: digits) ++ [']'] := by
      rw [plain, bracketed, List.append_assoc, List.cons_append]
    rw [closed, List.getLast?_append_cons, List.getLast?_singleton]
  · apply notLineFeed
    rw [lineFeed, List.getLast?_append_cons, List.getLast?_singleton]

/-- The digits of a number stand for that number. -/
theorem digitsValue_toDigits (value : Nat) :
    digitsValue (Nat.toDigits 10 value) = value := by
  induction value using Nat.strongRecOn with
  | ind value inductionHypothesis =>
      rw [Nat.toDigits_eq_if (by decide)]
      split
      · rename_i small
        simp only [digitsValue, List.foldl_cons, List.foldl_nil, Nat.zero_mul,
          Nat.zero_add, digitValue?_digitChar small, Option.getD_some]
      · rename_i large
        have small : value % 10 < 10 := Nat.mod_lt _ (by decide)
        have front := inductionHypothesis (value / 10) (by omega)
        rw [digitsValue] at front
        rw [digitsValue, List.foldl_append, front, List.foldl_cons,
          List.foldl_nil, digitValue?_digitChar small, Option.getD_some]
        omega

/-! ### Reading the last dimension -/

private theorem lastDimension?_bracketed (front : List Char)
    {digits : List Char}
    (allDigits : ∀ c ∈ digits, isDigit c = true) :
    lastDimension? (front ++ bracketed digits) = some (digits, front) := by
  have backwards : (front ++ bracketed digits).reverse =
      ']' :: (digits.reverse ++ '[' :: front.reverse) := by
    simp [bracketed]
  have reversed : ∀ c ∈ digits.reverse, isDigit c = true := by
    intro c found
    exact allDigits c (List.mem_reverse.1 found)
  have bracket : ∀ c ∈ ('[' :: front.reverse).head?, isDigit c = false := by
    intro c isNext
    cases isNext
    decide
  obtain ⟨taken, dropped⟩ := Text.span_append reversed bracket
  simp [lastDimension?, backwards, taken, dropped]

private theorem endsStatic_of_lastDimension? {text digits rest : List Char}
    (found : lastDimension? text = some (digits, rest)) (given : digits ≠ []) :
    EndsStatic text := by
  -- Behind the closing bracket there is nothing, or a single line feed.
  obtain ⟨more, behind, opening, sameDigits, shape⟩ : ∃ more behind,
      more.dropWhile isDigit = '[' :: behind ∧
      (more.takeWhile isDigit).reverse = digits ∧
      (text.reverse = ']' :: more ∨ text.reverse = '\n' :: ']' :: more) := by
    simp only [lastDimension?] at found
    split at found
    · rename_i more same
      split at found
      · rename_i behind opening
        refine ⟨more, behind, opening,
          (Prod.mk.inj (Option.some.inj found)).1, ?_⟩
        split at same
        · rename_i lineFeed
          exact Or.inr (by rw [lineFeed, same])
        · exact Or.inl same
      · cases found
    · cases found
  have whole : more = digits.reverse ++ '[' :: behind := by
    rw [← sameDigits, List.reverse_reverse, ← opening,
      List.takeWhile_append_dropWhile]
  refine ⟨behind.reverse, digits, given, ?_, ?_⟩
  · intro c member
    rw [← sameDigits, List.mem_reverse] at member
    exact List.mem_takeWhile_imp member
  · rcases shape with plain | lineFeed
    · apply Or.inl
      rw [← List.reverse_inj, plain, whole]
      simp [bracketed]
    · apply Or.inr
      rw [← List.reverse_inj, lineFeed, whole]
      simp [bracketed]

private theorem lengthFrom_of_not_endsStatic {text : List Char}
    (dynamic : ¬ EndsStatic text) (product : Option Nat) :
    lengthFrom product text = product := by
  rw [lengthFrom.eq_def]
  split
  · rename_i digits rest found
    by_cases empty : digits = []
    · rw [empty]
      rfl
    · exact absurd (endsStatic_of_lastDimension? found empty) dynamic
  · rfl

/-- What a further dimension is multiplied onto. -/
def factorOf : Option Nat → Nat
  | none => 1
  | some 0 => 1
  | some value => value

private theorem factorOf_some {product : Nat} (started : 1 ≤ product) :
    factorOf (some product) = product := by
  cases product with
  | zero => omega
  | succ count => rfl

private theorem lengthFrom_bracketed (product : Option Nat) (front : List Char)
    {digits : List Char} (given : digits ≠ [])
    (allDigits : ∀ c ∈ digits, isDigit c = true) :
    lengthFrom product (front ++ bracketed digits) =
      lengthFrom (some (factorOf product * digitsValue digits)) front := by
  have filled : digits.isEmpty = false := List.isEmpty_eq_false_iff.2 given
  have shorter : front.length < (front ++ bracketed digits).length := by
    simp [bracketed]
  rw [lengthFrom.eq_def, lastDimension?_bracketed front allDigits]
  simp only [filled, shorter, Bool.false_eq_true, if_false, if_true]
  rfl

theorem lengthFrom_bracketed_nil (product : Option Nat) (front : List Char) :
    lengthFrom product (front ++ bracketed []) = product := by
  rw [lengthFrom.eq_def, lastDimension?_bracketed front (List.forall_mem_nil _)]
  rfl

private theorem isOverlong_iff {digits : List Char}
    (allDigits : ∀ c ∈ digits, isDigit c = true) :
    isOverlong digits = true ↔ decimalLimit < digits.length := by
  rw [isOverlong, List.countP_eq_length.2 allDigits, decide_eq_true_iff]

private theorem overlongDimension?_of_not_endsStatic {text : List Char}
    (dynamic : ¬ EndsStatic text) : overlongDimension? text = none := by
  rw [overlongDimension?.eq_def]
  split
  · rename_i digits rest found
    by_cases empty : digits = []
    · rw [empty]
      rfl
    · exact absurd (endsStatic_of_lastDimension? found empty) dynamic
  · rfl

private theorem overlongDimension?_bracketed (front : List Char)
    {digits : List Char}
    (given : digits ≠ []) (allDigits : ∀ c ∈ digits, isDigit c = true) :
    overlongDimension? (front ++ bracketed digits) =
      if decimalLimit < digits.length then some digits.length
      else overlongDimension? front := by
  have filled : digits.isEmpty = false := List.isEmpty_eq_false_iff.2 given
  have shorter : front.length < (front ++ bracketed digits).length := by
    simp [bracketed]
  rw [overlongDimension?.eq_def, lastDimension?_bracketed front allDigits]
  simp only [filled, shorter, Bool.false_eq_true, if_false, if_true,
    isOverlong_iff allDigits]

theorem overlongDimension?_bracketed_nil (front : List Char) :
    overlongDimension? (front ++ bracketed []) = none := by
  rw [overlongDimension?.eq_def,
    lastDimension?_bracketed front (List.forall_mem_nil _)]
  rfl

/-! ### Types with dimensions -/

/-- A dimension, dynamic if it has no digits. -/
structure Dimension where
  digits : List Char
  allDigits : ∀ c ∈ digits, isDigit c = true

namespace Dimension

def IsStatic (dimension : Dimension) : Prop :=
  dimension.digits ≠ []

instance : DecidablePred IsStatic :=
  fun dimension => inferInstanceAs (Decidable (dimension.digits ≠ []))

def length (dimension : Dimension) : Nat :=
  digitsValue dimension.digits

def text (dimension : Dimension) : List Char :=
  bracketed dimension.digits

/-- The dimension has more digits than a number may have. -/
def IsOverlong (dimension : Dimension) : Prop :=
  decimalLimit < dimension.digits.length

instance : DecidablePred IsOverlong :=
  fun _ => inferInstanceAs (Decidable (_ < _))

def dynamic : Dimension :=
  ⟨[], List.forall_mem_nil _⟩

/-- A length in decimal notation, with so many zeros in front. -/
def written (zeros length : Nat) : Dimension where
  digits := List.replicate zeros '0' ++ Nat.toDigits 10 length
  allDigits := by
    intro c member
    rcases List.mem_append.1 member with zero | digit
    · rw [List.eq_of_mem_replicate zero]
      decide
    · exact isDigit_of_mem_toDigits length digit

theorem isStatic_written (zeros length : Nat) :
    (written zeros length).IsStatic := by
  intro empty
  exact Nat.toDigits_ne_nil (List.append_eq_nil_iff.1 empty).2

private theorem length_digits_written (zeros length : Nat) :
    (written zeros length).digits.length =
      zeros + (Nat.toDigits 10 length).length := by
  rw [written, List.length_append, List.length_replicate]

theorem length_written (zeros length : Nat) :
    (written zeros length).length = length := by
  have zeroDigits : digitsValue (List.replicate zeros '0') = 0 := by
    induction zeros with
    | zero => rfl
    | succ zeros inductionHypothesis =>
        rw [digitsValue, List.replicate_succ, List.foldl_cons]
        exact inductionHypothesis
  have sameFold : digitsValue (written zeros length).digits =
      digitsValue (Nat.toDigits 10 length) := by
    rw [digitsValue] at zeroDigits
    rw [written, digitsValue, List.foldl_append, zeroDigits, digitsValue]
  rw [Dimension.length, sameFold, digitsValue_toDigits]

end Dimension

/-- A type text with dimensions behind it, the outermost one last. -/
def dimensioned (base : List Char) (dimensions : List Dimension) : List Char :=
  base ++ dimensions.flatMap Dimension.text

/-- The longest run of static dimensions at the end. -/
def staticRun (dimensions : List Dimension) : List Dimension :=
  dimensions.rtakeWhile Dimension.IsStatic

/-- The number of elements that a run of static dimensions makes, none without
a static dimension. -/
def runLength (run : List Dimension) : Option Nat :=
  if run.isEmpty then none else some (run.map Dimension.length).prod

theorem dimensioned_append (base : List Char) (inner : List Dimension)
    (outer : Dimension) :
    dimensioned base (inner ++ [outer]) =
      dimensioned base inner ++ bracketed outer.digits := by
  rw [dimensioned, dimensioned, List.flatMap_append, List.flatMap_singleton,
    List.append_assoc, Dimension.text]

private theorem staticRun_append_static (inner : List Dimension)
    {outer : Dimension}
    (static : outer.IsStatic) :
    staticRun (inner ++ [outer]) = staticRun inner ++ [outer] :=
  List.rtakeWhile_concat_pos _ _ _ (decide_eq_true static)

private theorem staticRun_append_dynamic (inner : List Dimension)
    {outer : Dimension}
    (dynamic : ¬ outer.IsStatic) : staticRun (inner ++ [outer]) = [] :=
  List.rtakeWhile_concat_neg _ _ _ (mt of_decide_eq_true dynamic)

section

variable {base : List Char} (ended : ¬ EndsStatic base)
include ended

/-- The run of static dimensions is multiplied onto a product. -/
theorem lengthFrom_dimensioned {dimensions : List Dimension}
    (positive : ∀ dimension ∈ dimensions, dimension.IsStatic →
      1 ≤ dimension.length)
    {product : Nat} (started : 1 ≤ product) :
    lengthFrom (some product) (dimensioned base dimensions) =
      some (product * ((staticRun dimensions).map Dimension.length).prod) := by
  induction dimensions using List.reverseRecOn generalizing product with
  | nil =>
      rw [dimensioned, List.flatMap_nil, List.append_nil,
        lengthFrom_of_not_endsStatic ended]
      exact congrArg some (Nat.mul_one product).symm
  | append_singleton inner outer inductionHypothesis =>
      rw [dimensioned_append]
      by_cases static : outer.IsStatic
      · have outerPositive : 1 ≤ outer.length :=
          positive outer (by simp) static
        rw [lengthFrom_bracketed _ _ static outer.allDigits,
          factorOf_some started, staticRun_append_static inner static]
        refine (inductionHypothesis
          (fun other member => positive other (List.mem_append_left _ member))
          (Nat.mul_le_mul started outerPositive)).trans ?_
        rw [List.map_append, List.prod_append, List.map_singleton,
          List.prod_singleton, Nat.mul_assoc, Nat.mul_comm _ outer.length,
          Dimension.length]
      · have empty : outer.digits = [] := not_not.1 static
        rw [empty, lengthFrom_bracketed_nil,
          staticRun_append_dynamic inner static, List.map_nil, List.prod_nil,
          Nat.mul_one]

/-- Read from the outermost dimension inwards, the first in the run that is too
long is met. -/
theorem overlongDimension?_dimensioned (dimensions : List Dimension) :
    overlongDimension? (dimensioned base dimensions) =
      ((staticRun dimensions).reverse.find? Dimension.IsOverlong).map
        fun dimension => dimension.digits.length := by
  induction dimensions using List.reverseRecOn with
  | nil =>
      rw [dimensioned, List.flatMap_nil, List.append_nil,
        overlongDimension?_of_not_endsStatic ended]
      rfl
  | append_singleton inner outer inductionHypothesis =>
      rw [dimensioned_append]
      by_cases static : outer.IsStatic
      · rw [overlongDimension?_bracketed _ static outer.allDigits,
          staticRun_append_static inner static, List.reverse_append,
          List.reverse_singleton, List.singleton_append]
        by_cases long : outer.IsOverlong
        · rw [List.find?_cons_of_pos (by exact decide_eq_true long)]
          exact if_pos long
        · rw [List.find?_cons_of_neg (by exact mt of_decide_eq_true long),
            ← inductionHypothesis]
          exact if_neg long
      · have empty : outer.digits = [] := not_not.1 static
        rw [empty, overlongDimension?_bracketed_nil,
          staticRun_append_dynamic inner static]
        rfl

end

/-! ### Mappings and normal texts -/

private theorem isMapping_eq_true_iff {normal : List Char} :
    isMapping normal = true ↔ "mapping(".toList <+: normal := by
  rw [isMapping, startsWith, List.isPrefixOf_iff_prefix]

/-- What follows a bracket does not make a text a mapping. -/
theorem isMapping_append_bracket (front rest : List Char) :
    isMapping (front ++ '[' :: rest) = isMapping front := by
  have noBracket : '[' ∉ "mapping(".toList := by decide
  rw [Bool.eq_iff_iff, isMapping_eq_true_iff, isMapping_eq_true_iff]
  constructor
  · intro starts
    rcases List.prefix_or_prefix_of_prefix starts
        (List.prefix_append front ('[' :: rest)) with inFront | ⟨more, longer⟩
    · exact inFront
    · rw [← longer, List.prefix_append_right_inj] at starts
      cases more with
      | nil =>
          rw [List.append_nil] at longer
          exact longer ▸ List.prefix_rfl
      | cons c others =>
          -- A longer start would run into the bracket.
          apply absurd _ noBracket
          rw [← longer, ← (List.cons_prefix_cons.1 starts).1]
          exact List.mem_append_right front List.mem_cons_self
  · intro starts
    exact starts.trans (List.prefix_append front ('[' :: rest))

theorem isMapping_dimensioned (base : List Char) (dimensions : List Dimension) :
    isMapping (dimensioned base dimensions) = isMapping base := by
  cases dimensions with
  | nil => rw [dimensioned, List.flatMap_nil, List.append_nil]
  | cons outer others =>
      rw [dimensioned, List.flatMap_cons, Dimension.text, bracketed,
        List.cons_append, isMapping_append_bracket]

/-- A text that ends in a bracket and does not start with a blank is normal. -/
theorem normalize_of_bracket {first : Char} {rest : List Char}
    (filled : isBlank first = false) (closing : [']'] <:+ first :: rest) :
    normalize (first :: rest) = first :: rest :=
  normalize_of_endsApart filled closing (by decide) (by decide)

theorem normalize_bracketed {first : Char} (filled : isBlank first = false)
    (rest digits : List Char) :
    normalize (first :: rest ++ bracketed digits) =
      first :: rest ++ bracketed digits := by
  apply normalize_of_bracket filled
  exact ⟨first :: rest ++ '[' :: digits, by simp [bracketed]⟩

private theorem normalize_dimensioned {base : List Char} (given : base ≠ [])
    (normal : normalize base = base) (dimensions : List Dimension) :
    normalize (dimensioned base dimensions) = dimensioned base dimensions := by
  rcases List.eq_nil_or_concat dimensions with rfl | ⟨inner, outer, rfl⟩
  · rw [dimensioned, List.flatMap_nil, List.append_nil, normal]
  · have started := startsFilled_normalize base
    rw [normal] at started
    rw [List.concat_eq_append, dimensioned_append]
    cases base with
    | nil => exact absurd rfl given
    | cons first rest => exact normalize_bracketed (started first rfl) _ _

private theorem not_endsStatic_of_normal {base : List Char}
    (normal : normalize base = base) (unclosed : base.getLast? ≠ some ']') :
    ¬ EndsStatic base := by
  apply not_endsStatic unclosed
  intro lineFeed
  have filled := endsFilled_normalize base
  rw [normal] at filled
  cases filled '\n' lineFeed

/-! ### The length of an array type -/

/-- The outermost dimension is not read if it has more digits than a number may
have, however small the number is. -/
theorem dimensionFault?_of_overlong {text front digits : List Char}
    (normal : normalize text = front ++ bracketed digits)
    (plain : isMapping (front ++ bracketed digits) = false)
    (allDigits : ∀ c ∈ digits, isDigit c = true)
    (long : decimalLimit < digits.length) :
    dimensionFault? text = some (.numberTooLong digits.length) := by
  have given : digits ≠ [] := by
    rintro rfl
    exact absurd long (Nat.not_lt_zero _)
  rw [dimensionFault?, normal, plain, if_neg Bool.false_ne_true,
    overlongDimension?_bracketed front given allDigits, if_pos long,
    Option.map_some]

/-- The product starts with the outermost dimension. -/
theorem lengthFrom_none_dimensioned {base : List Char}
    (ended : ¬ EndsStatic base) {dimensions : List Dimension}
    (positive : ∀ dimension ∈ dimensions, dimension.IsStatic →
      1 ≤ dimension.length) :
    lengthFrom none (dimensioned base dimensions) =
      runLength (staticRun dimensions) := by
  rcases List.eq_nil_or_concat dimensions with rfl | ⟨inner, outer, rfl⟩
  · rw [dimensioned, List.flatMap_nil, List.append_nil,
      lengthFrom_of_not_endsStatic ended]
    rfl
  · rw [List.concat_eq_append] at positive ⊢
    rw [dimensioned_append]
    by_cases static : outer.IsStatic
    · have outerPositive : 1 ≤ outer.length := positive outer (by simp) static
      have inside : (staticRun inner ++ [outer]).isEmpty = false := by simp
      rw [lengthFrom_bracketed _ _ static outer.allDigits, factorOf,
        Nat.one_mul, staticRun_append_static inner static, runLength, inside,
        if_neg Bool.false_ne_true]
      refine (lengthFrom_dimensioned ended
        (fun other member => positive other (List.mem_append_left _ member))
        outerPositive).trans ?_
      rw [List.map_append, List.prod_append, List.map_singleton,
        List.prod_singleton, Nat.mul_comm]
    · have empty : outer.digits = [] := not_not.1 static
      rw [empty, lengthFrom_bracketed_nil,
        staticRun_append_dynamic inner static]
      rfl

private theorem readLength_dimensioned {base : List Char} (given : base ≠ [])
    (normal : normalize base = base) (plain : isMapping base = false)
    (ended : ¬ EndsStatic base) {dimensions : List Dimension}
    (positive : ∀ dimension ∈ dimensions, dimension.IsStatic →
      1 ≤ dimension.length) :
    readLength (dimensioned base dimensions) =
      ((staticRun dimensions).reverse.find? Dimension.IsOverlong).elim
        (.ok (runLength (staticRun dimensions)))
        fun dimension => .error (.numberTooLong dimension.digits.length) := by
  have notMapping : isMapping (dimensioned base dimensions) = false := by
    rw [isMapping_dimensioned, plain]
  rw [readLength, dimensionFault?, staticLength?,
    normalize_dimensioned given normal]
  simp only [notMapping, Bool.false_eq_true, if_false,
    overlongDimension?_dimensioned ended, lengthFrom_none_dimensioned ended positive]
  cases (staticRun dimensions).reverse.find? Dimension.IsOverlong with
  | none => rfl
  | some dimension => rfl

/-- The length of an array type is the product of the longest run of static
dimensions at the end of its text, and there is none if the text has no
dimension or ends in a dynamic one.  If a dimension of that run has more digits
than a number may have, the outermost of these is refused instead. -/
theorem readLength_multiplies_static_run {base : List Char} (given : base ≠ [])
    (normal : normalize base = base) (plain : isMapping base = false)
    (unclosed : base.getLast? ≠ some ']') {dimensions : List Dimension}
    (positive : ∀ dimension ∈ dimensions, dimension.IsStatic →
      1 ≤ dimension.length) :
    ((∀ dimension ∈ staticRun dimensions, ¬ dimension.IsOverlong) →
        readLength (dimensioned base dimensions) =
          .ok (runLength (staticRun dimensions))) ∧
      ∀ inner dimension outer,
        staticRun dimensions = inner ++ dimension :: outer →
        dimension.IsOverlong → (∀ other ∈ outer, ¬ other.IsOverlong) →
        readLength (dimensioned base dimensions) =
          .error (.numberTooLong dimension.digits.length) := by
  have ended := not_endsStatic_of_normal normal unclosed
  have read := readLength_dimensioned given normal plain ended positive
  constructor
  · intro short
    have none : (staticRun dimensions).reverse.find? Dimension.IsOverlong =
        none := by
      rw [List.find?_eq_none]
      intro dimension member
      exact mt of_decide_eq_true (short dimension (List.mem_reverse.1 member))
    rw [read, none]
    rfl
  · intro inner dimension outer run long short
    have first : (staticRun dimensions).reverse.find? Dimension.IsOverlong =
        some dimension := by
      rw [List.find?_eq_some_iff_append]
      refine ⟨decide_eq_true long, outer.reverse, inner.reverse, ?_, ?_⟩
      · rw [run, List.reverse_append, List.reverse_cons, List.append_assoc,
          List.singleton_append]
      · intro other member
        rw [Bool.not_eq_true', decide_eq_false_iff_not]
        exact short other (List.mem_reverse.1 member)
    rw [read, first]
    rfl

theorem normalize_word : normalize "uint256".toList = "uint256".toList :=
  normalize_of_stable rfl rfl

def mixedDimensions : List Dimension :=
  [.written 0 3, .dynamic, .written 1 2, .written 0 5]

/-- The third and fourth of four dimensions are behind the dynamic one. -/
theorem readLength_mixedDimensions :
    (∀ dimension ∈ mixedDimensions, dimension.IsStatic →
      1 ≤ dimension.length) ∧
    dimensioned "uint256".toList mixedDimensions =
      "uint256[3][][02][5]".toList ∧
    readLength "uint256[3][][02][5]".toList = .ok (some 10) := by
  have positive : ∀ dimension ∈ mixedDimensions, dimension.IsStatic →
      1 ≤ dimension.length := by decide
  have text : dimensioned "uint256".toList mixedDimensions =
      "uint256[3][][02][5]".toList := by decide
  have short : ∀ dimension ∈ staticRun mixedDimensions,
      ¬ dimension.IsOverlong := by decide
  have multiplied : runLength (staticRun mixedDimensions) = some 10 := by decide
  have read := (readLength_multiplies_static_run (by decide) normalize_word
    (by decide) (by decide) positive).1 short
  rw [text, multiplied] at read
  exact ⟨positive, text, read⟩

/-- The number one with too many zeros in front, and the smallest number that
has too many digits of its own. -/
def overlongDimensions : List Dimension :=
  [.written decimalLimit 1, .written 0 (10 ^ decimalLimit)]

private theorem length_toDigits_pow {count : Nat} (positive : 0 < count) :
    (Nat.toDigits 10 (10 ^ count)).length = count + 1 := by
  have atMost : (Nat.toDigits 10 (10 ^ count)).length ≤ count + 1 := by
    rw [Nat.length_toDigits_le_iff (by decide) (Nat.succ_pos count)]
    exact Nat.pow_lt_pow_right (by decide) (Nat.lt_succ_self count)
  have more : ¬ (Nat.toDigits 10 (10 ^ count)).length ≤ count := by
    rw [Nat.length_toDigits_le_iff (by decide) positive]
    exact Nat.lt_irrefl _
  omega

private theorem digits_overlongDimensions {dimension : Dimension}
    (member : dimension ∈ overlongDimensions) :
    dimension.digits.length = decimalLimit + 1 := by
  simp only [overlongDimensions, List.mem_cons, List.not_mem_nil, or_false]
    at member
  rcases member with rfl | rfl
  · rw [Dimension.length_digits_written]
    rfl
  · rw [Dimension.length_digits_written, length_toDigits_pow (by decide),
      Nat.zero_add]

/-- Each of them alone is a static dimension of positive length, but an array of
that length is refused. -/
theorem readLength_refuses_overlong :
    overlongDimensions.map Dimension.length = [1, 10 ^ decimalLimit] ∧
      ∀ dimension ∈ overlongDimensions,
        staticRun [dimension] = [dimension] ∧
        readLength (dimensioned "uint256".toList [dimension]) =
          .error (.numberTooLong (decimalLimit + 1)) := by
  refine ⟨?_, ?_⟩
  · rw [overlongDimensions, List.map_cons, List.map_singleton,
      Dimension.length_written, Dimension.length_written]
  · intro dimension member
    have digits := digits_overlongDimensions member
    have static : dimension.IsStatic := by
      intro empty
      rw [empty] at digits
      cases digits
    have long : decimalLimit < dimension.digits.length := by omega
    refine ⟨staticRun_append_static [] static, ?_⟩
    have normal : normalize (dimensioned "uint256".toList [dimension]) =
        "uint256".toList ++ bracketed dimension.digits := by
      rw [normalize_dimensioned (by decide) normalize_word,
        ← List.nil_append [dimension], dimensioned_append]
      rfl
    have plain : isMapping ("uint256".toList ++ bracketed dimension.digits) =
        false := by
      rw [bracketed, isMapping_append_bracket]
      decide
    rw [readLength, dimensionFault?_of_overlong normal plain dimension.allDigits long,
      digits]

end ContractAtlas.TypeName
