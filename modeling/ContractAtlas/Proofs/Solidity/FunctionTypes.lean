/-
The width of function types.

A function type is written with the types of its parameters, perhaps with a
state mutability, perhaps with the word `external`, and perhaps with the types
of its results; parameters and results may be function types again.  The width
depends on whether ` external` occurs anywhere in the text.  Parentheses and
commas do not occur in that word, so it occurs in a function type if the
function itself is external or if one of the types inside mentions it.  A
function that is not external thus has the width of an external one as soon as
a function type inside it is external.
-/

import ContractAtlas.Proofs.Solidity.Normal

namespace ContractAtlas.TypeName

open Text

/-! ### Pieces of a text and separators -/

/-- What marks the type of an external function. -/
def externalMark : List Char :=
  " external".toList

private theorem occursIn_iff {piece text : List Char} :
    occursIn piece text = true ↔ piece <:+: text := by
  induction text with
  | nil => rw [occursIn, List.isEmpty_iff, List.infix_nil]
  | cons c rest inductionHypothesis =>
      rw [occursIn, Bool.or_eq_true, inductionHypothesis,
        List.isPrefixOf_iff_prefix, List.infix_cons_iff]

private theorem prefix_append_cons_iff {piece left right : List Char} {c : Char}
    (apart : c ∉ piece) : piece <+: left ++ c :: right ↔ piece <+: left := by
  constructor
  · intro starts
    have marked : left ++ [c] <+: left ++ c :: right := ⟨right, by simp⟩
    rcases List.prefix_or_prefix_of_prefix starts marked with inside | around
    · rcases List.prefix_concat_iff.1 inside with same | before
      · rw [same] at apart
        exact absurd (by simp) apart
      · exact before
    · exact absurd (around.subset (by simp)) apart
  · intro starts
    exact starts.trans (List.prefix_append left (c :: right))

/-- A piece without the separator lies on one side of it. -/
theorem occursIn_append_cons {piece : List Char} {c : Char}
    (given : piece ≠ []) (apart : c ∉ piece) (left right : List Char) :
    occursIn piece (left ++ c :: right) =
      (occursIn piece left || occursIn piece right) := by
  rw [Bool.eq_iff_iff, Bool.or_eq_true]
  simp only [occursIn_iff]
  induction left with
  | nil =>
      have notFirst : ¬ piece <+: c :: right := by
        intro starts
        have before : piece <+: [] := (prefix_append_cons_iff apart).1 starts
        exact given (List.prefix_nil.1 before)
      rw [List.nil_append, List.infix_cons_iff, List.infix_nil]
      simp only [notFirst, given, false_or]
  | cons first rest inductionHypothesis =>
      rw [List.cons_append, List.infix_cons_iff, ← List.cons_append,
        prefix_append_cons_iff apart, inductionHypothesis, List.infix_cons_iff,
        or_assoc]

/-- Parentheses and commas separate the pieces in which the mark can occur. -/
theorem occursIn_separated (c : Char) (separator : c ∈ ['(', ')', ','])
    (left right : List Char) :
    occursIn externalMark (left ++ c :: right) =
      (occursIn externalMark left || occursIn externalMark right) := by
  have apart : c ∉ externalMark := by
    simp only [List.mem_cons, List.not_mem_nil, or_false] at separator
    rcases separator with rfl | rfl | rfl <;> decide
  exact occursIn_append_cons (by decide) apart left right

/-! ### The texts of function types -/

def functionWord : List Char :=
  "function ".toList

def returnsWord : List Char :=
  " returns ".toList

inductive Mutability where
  | pure
  | view
  | payable
  | nonpayable
  | constant

def Mutability.text : Mutability → List Char
  | pure => " pure".toList
  | view => " view".toList
  | payable => " payable".toList
  | nonpayable => " nonpayable".toList
  | constant => " constant".toList

/-- What a function type says between its parameters and its results. -/
structure FunctionMarks where
  mutability : Option Mutability
  isExternal : Bool

def FunctionMarks.text (marks : FunctionMarks) : List Char :=
  (marks.mutability.map Mutability.text).getD [] ++
    if marks.isExternal then externalMark else []

/-- Type texts, with function types taken apart as far as one likes. -/
inductive TypeTree where
  /-- Any type text. -/
  | plain (text : List Char)
  | function (parameters : List TypeTree) (marks : FunctionMarks)
  | returning (parameters : List TypeTree) (marks : FunctionMarks)
      (results : List TypeTree)

namespace TypeTree

/-- A function type with these parts. -/
def functionType (parameters : List TypeTree) (marks : FunctionMarks) :
    Option (List TypeTree) → TypeTree
  | none => function parameters marks
  | some results => returning parameters marks results

mutual

def text : TypeTree → List Char
  | plain text => text
  | function parameters marks =>
      functionWord ++ '(' :: (textOfAll parameters ++ ')' :: marks.text)
  | returning parameters marks results =>
      functionWord ++ '(' :: (textOfAll parameters ++ ')' ::
        ((marks.text ++ returnsWord) ++
          '(' :: (textOfAll results ++ [')'])))

/-- The texts of types with commas between them. -/
def textOfAll : List TypeTree → List Char
  | [] => []
  | type :: rest => text type ++ textAfterComma rest

def textAfterComma : List TypeTree → List Char
  | [] => []
  | type :: rest => ',' :: (text type ++ textAfterComma rest)

end

mutual

/-- The type is an external function, or one of the types in it mentions an
external function. -/
def mentionsExternal : TypeTree → Bool
  | plain text => occursIn externalMark text
  | function parameters marks => marks.isExternal || anyExternal parameters
  | returning parameters marks results =>
      marks.isExternal || (anyExternal parameters || anyExternal results)

def anyExternal : List TypeTree → Bool
  | [] => false
  | type :: rest => mentionsExternal type || anyExternal rest

end

private theorem occursIn_marks (marks : FunctionMarks) :
    occursIn externalMark marks.text = marks.isExternal := by
  obtain ⟨mutability, isExternal⟩ := marks
  rcases mutability with - | (- | - | - | - | -) <;> cases isExternal <;> decide

private theorem occursIn_marks_returns (marks : FunctionMarks) :
    occursIn externalMark (marks.text ++ returnsWord) =
      marks.isExternal := by
  obtain ⟨mutability, isExternal⟩ := marks
  rcases mutability with - | (- | - | - | - | -) <;> cases isExternal <;> decide

private theorem occursIn_parameters (parameters rest : List Char) :
    occursIn externalMark
        (functionWord ++ '(' :: (parameters ++ ')' :: rest)) =
      (occursIn externalMark parameters || occursIn externalMark rest) := by
  have unmarked : occursIn externalMark functionWord = false := by decide
  rw [occursIn_separated '(' (by decide) functionWord, unmarked,
    Bool.false_or, occursIn_separated ')' (by decide)]

private theorem occursIn_results (marks : FunctionMarks) (results : List Char) :
    occursIn externalMark
        ((marks.text ++ returnsWord) ++ '(' :: (results ++ [')'])) =
      (marks.isExternal || occursIn externalMark results) := by
  have unmarked : occursIn externalMark [] = false := by decide
  rw [occursIn_separated '(' (by decide), occursIn_marks_returns,
    occursIn_separated ')' (by decide) results, unmarked, Bool.or_false]

mutual

private theorem occursIn_text (type : TypeTree) :
    occursIn externalMark type.text = type.mentionsExternal := by
  cases type with
  | plain text => rfl
  | function parameters marks =>
      rw [text, occursIn_parameters, occursIn_marks,
        occursIn_textOfAll parameters, Bool.or_comm]
      rfl
  | returning parameters marks results =>
      rw [text, occursIn_parameters, occursIn_results,
        occursIn_textOfAll parameters, occursIn_textOfAll results,
        Bool.or_left_comm]
      rfl

private theorem occursIn_textOfAll (types : List TypeTree) :
    occursIn externalMark (textOfAll types) = anyExternal types := by
  cases types with
  | nil => rfl
  | cons type rest =>
      rw [textOfAll, occursIn_textAfterComma type.text rest, occursIn_text type]
      rfl

private theorem occursIn_textAfterComma (front : List Char)
    (types : List TypeTree) :
    occursIn externalMark (front ++ textAfterComma types) =
      (occursIn externalMark front || anyExternal types) := by
  cases types with
  | nil =>
      rw [textAfterComma, List.append_nil]
      exact (Bool.or_false _).symm
  | cons type rest =>
      rw [textAfterComma, occursIn_separated ',' (by decide) front,
        occursIn_textAfterComma type.text rest, occursIn_text type]
      rfl

end

end TypeTree

/-! ### Their widths -/

private theorem normalWidth?_of_function {rest : List Char}
    (unclosed : ¬ [']'] <:+ functionWord ++ rest) :
    normalWidth? (functionWord ++ rest) =
      .ok (some (if occursIn externalMark (functionWord ++ rest) then 24 else 8)) := by
  have notClosed : endsWith (functionWord ++ rest) [']'] = false := by
    rwa [← Bool.not_eq_true, endsWith_iff]
  rw [normalWidth?, notClosed]
  rfl

/-- Whatever a function type ends in, as long as it is not taken for a data
location or an array, only the mark decides. -/
theorem readWidth_of_function {rest ending : List Char}
    (closing : ending <:+ functionWord ++ rest) (ended : EndsFilled ending)
    (apart : EndsApart ending) (unclosed : ¬ [']'] <:+ ending)
    (member : Datum) :
    readWidth (String.ofList (functionWord ++ rest)) member =
      .ok (if occursIn externalMark (functionWord ++ rest) then 24 else 8) := by
  have normal : normalize (functionWord ++ rest) = functionWord ++ rest :=
    normalize_of_endsApart (by decide) closing ended apart
  have notArray : ¬ [']'] <:+ functionWord ++ rest := by
    intro closed
    apply unclosed
    apply List.suffix_of_suffix_length_le closed closing
    exact List.length_pos_iff.2 apart.ne_nil
  have given : (String.ofList (functionWord ++ rest)).isEmpty = false := by
    rw [Bool.eq_false_iff]
    intro empty
    have noText := congrArg String.toList (String.isEmpty_iff.1 empty)
    rw [String.toList_ofList] at noText
    cases noText
  have short : isOverlong (widthDigits (functionWord ++ rest)) = false := rfl
  simp only [readWidth, width, String.toList_ofList, normal, short, given,
    normalWidth?_of_function notArray, Bool.false_eq_true, if_false]

namespace TypeTree

private theorem readWidth_text (parameters : List TypeTree)
    (marks : FunctionMarks)
    (results : Option (List TypeTree)) (member : Datum) :
    readWidth (String.ofList (functionType parameters marks results).text)
        member =
      .ok (if (functionType parameters marks results).mentionsExternal then 24
        else 8) := by
  rw [← occursIn_text]
  cases results with
  | none =>
      have ending : EndsFilled (')' :: marks.text) ∧
          EndsApart (')' :: marks.text) ∧ ¬ [']'] <:+ ')' :: marks.text := by
        obtain ⟨mutability, isExternal⟩ := marks
        rcases mutability with - | (- | - | - | - | -) <;>
          cases isExternal <;> decide
      rw [functionType, text]
      apply readWidth_of_function _ ending.1 ending.2.1 ending.2.2
      exact ⟨functionWord ++ '(' :: textOfAll parameters, by simp⟩
  | some results =>
      rw [functionType, text]
      apply readWidth_of_function _ (by decide : EndsFilled [')']) (by decide)
        (by decide)
      exact ⟨functionWord ++ '(' :: (textOfAll parameters ++ ')' ::
        ((marks.text ++ returnsWord) ++ '(' :: textOfAll results)), by simp⟩

private theorem mentionsExternal_functionType (parameters : List TypeTree)
    (marks : FunctionMarks) (results : Option (List TypeTree)) :
    (functionType parameters marks results).mentionsExternal =
      (marks.isExternal ||
        (anyExternal parameters || anyExternal (results.getD []))) := by
  cases results with
  | none =>
      rw [Option.getD_none, anyExternal, Bool.or_false]
      rfl
  | some results => rfl

/-- A function type has the width of an external one if it is external itself
or if a type among its parameters and results mentions an external function, at
any depth.  So it has the width that it should have exactly if it is external or
nothing inside it mentions an external function. -/
theorem function_width_follows_inner_types (parameters : List TypeTree)
    (marks : FunctionMarks) (results : Option (List TypeTree))
    (member : Datum) :
    readWidth (String.ofList (functionType parameters marks results).text)
        member =
      .ok (if marks.isExternal ||
        (anyExternal parameters || anyExternal (results.getD [])) then 24
        else 8) ∧
    (readWidth (String.ofList (functionType parameters marks results).text)
        member = .ok (if marks.isExternal then 24 else 8) ↔
      marks.isExternal = true ∨
        anyExternal parameters = false ∧
          anyExternal (results.getD []) = false) := by
  rw [readWidth_text, mentionsExternal_functionType]
  refine ⟨rfl, ?_⟩
  rw [Except.ok.injEq]
  cases marks.isExternal <;> cases anyExternal parameters <;>
    cases anyExternal (results.getD []) <;> decide

/-- A function that is not external and takes an external function has the
width of an external function. -/
theorem callback_width_is_external :
    String.ofList
        (functionType [.function [] ⟨none, true⟩] ⟨none, false⟩ none).text =
      "function (function () external)" ∧
    readWidth "function (function () external)" (.plain .null) = .ok 24 := by
  have spelled : String.ofList
      (functionType [.function [] ⟨none, true⟩] ⟨none, false⟩ none).text =
      "function (function () external)" := by decide
  refine ⟨spelled, ?_⟩
  rw [← spelled, readWidth_text]
  rfl

end TypeTree

end ContractAtlas.TypeName
