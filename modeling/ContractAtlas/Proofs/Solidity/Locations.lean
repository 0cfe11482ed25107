/-
Data locations.

Locations overlap: ` storage ref` can be taken off a type text as a whole, or
` ref` first and ` storage` after it.  Whichever is taken off first, the ways
meet again, so a type text has one normal form, and locations behind a type
text leave that form as it is.
-/

import Mathlib.Data.List.TakeWhile
import Mathlib.Logic.Function.Iterate
import Mathlib.Logic.Relation
import ContractAtlas.Proofs.Solidity.Widths

namespace ContractAtlas

namespace Text

theorem trimStart_append {text : List Char}
    (filled : ∃ c ∈ text, isBlank c = false) (more : List Char) :
    trimStart (text ++ more) = trimStart text ++ more := by
  have left : (text.dropWhile isBlank).isEmpty = false := by
    rw [List.isEmpty_eq_false_iff, Ne, List.dropWhile_eq_nil_iff]
    intro blank
    obtain ⟨c, member, notBlank⟩ := filled
    rw [blank c member] at notBlank
    cases notBlank
  rw [trimStart, trimStart, List.dropWhile_append, left]
  rfl

private theorem trimEnd_append_blanks (text : List Char) {blanks : List Char}
    (blank : ∀ c ∈ blanks, isBlank c = true) :
    trimEnd (text ++ blanks) = trimEnd text := by
  have backwards : ∀ c ∈ blanks.reverse, isBlank c = true := by
    intro c member
    exact blank c (List.mem_reverse.1 member)
  rw [trimEnd, trimEnd, List.reverse_append,
    List.dropWhile_append_of_pos backwards]

end Text

namespace TypeName

open Text Relation

/-! ### Taking one location off -/

/-- A location at the end and the blanks before it are taken off. -/
def Strips (text rest : List Char) : Prop :=
  ∃ suffix ∈ locationSuffixes, ∃ front,
    text = front ++ suffix ∧ rest = trimEnd front

private theorem trimEnd_append_location (front : List Char) {suffix : List Char}
    (location : suffix ∈ locationSuffixes) :
    trimEnd (front ++ suffix) = front ++ suffix := by
  have ends : ∀ suffix ∈ locationSuffixes,
      EndsFilled suffix ∧ suffix ≠ [] := by decide
  obtain ⟨filled, given⟩ := ends suffix location
  exact trimEnd_eq_self
    (filled.of_suffix (List.suffix_append front suffix) given)

/-- A location that ends in another one is a third one before it. -/
theorem location_of_suffix : ∀ inner ∈ locationSuffixes,
    ∀ outer ∈ locationSuffixes, inner <:+ outer →
      inner = outer ∨ ∃ first ∈ locationSuffixes, outer = first ++ inner := by
  decide

private theorem strips_of_suffix {front rest inner outer : List Char}
    (isInner : inner ∈ locationSuffixes) (isOuter : outer ∈ locationSuffixes)
    (same : front ++ inner = rest ++ outer) (nested : inner <:+ outer) :
    trimEnd front = trimEnd rest ∨ Strips (trimEnd front) (trimEnd rest) := by
  rcases location_of_suffix inner isInner outer isOuter nested with
    equal | ⟨first, isFirst, joined⟩
  · rw [equal, List.append_cancel_right_eq] at same
    exact Or.inl (by rw [same])
  · rw [joined, ← List.append_assoc, List.append_cancel_right_eq] at same
    rw [same, trimEnd_append_location rest isFirst]
    exact Or.inr ⟨first, isFirst, rest, rfl, rfl⟩

theorem Strips.joins {text first second : List Char}
    (left : Strips text first) (right : Strips text second) :
    first = second ∨ Strips first second ∨ Strips second first := by
  obtain ⟨suffix, isSuffix, front, rfl, rfl⟩ := left
  obtain ⟨other, isOther, rest, same, rfl⟩ := right
  -- Both locations end the text, so one of them ends in the other.
  rcases List.suffix_or_suffix_of_suffix (List.suffix_append front suffix)
      ⟨rest, same.symm⟩ with nested | nested
  · rcases strips_of_suffix isSuffix isOther same nested with equal | strips
    · exact Or.inl equal
    · exact Or.inr (Or.inl strips)
  · rcases strips_of_suffix isOther isSuffix same.symm nested with
      equal | strips
    · exact Or.inl equal.symm
    · exact Or.inr (Or.inr strips)

/-! ### One normal form -/

/-- No location is left at the end. -/
def Settled (text : List Char) : Prop :=
  ∀ suffix ∈ locationSuffixes, endsWith text suffix = false

private theorem Settled.not_strips {text rest : List Char}
    (settled : Settled text) :
    ¬ Strips text rest := by
  intro strips
  obtain ⟨suffix, location, front, rfl, -⟩ := strips
  have ends := (endsWith_iff (front ++ suffix) suffix).2
    (List.suffix_append front suffix)
  rw [settled suffix location] at ends
  cases ends

private theorem Settled.eq_of_reaches {text rest : List Char}
    (settled : Settled text)
    (reaches : ReflTransGen Strips text rest) : rest = text := by
  rcases reaches.cases_head with same | ⟨next, strips, -⟩
  · exact same.symm
  · exact absurd strips settled.not_strips

private theorem settled_unique {text first second : List Char}
    (left : ReflTransGen Strips text first)
    (right : ReflTransGen Strips text second)
    (firstSettled : Settled first) (secondSettled : Settled second) :
    first = second := by
  have joins : ∀ a b c, Strips a b → Strips a c →
      ∃ d, ReflGen Strips b d ∧ ReflTransGen Strips c d := by
    intro a b c toFirst toSecond
    rcases toFirst.joins toSecond with rfl | onward | onward
    · exact ⟨b, .refl, .refl⟩
    · exact ⟨c, .single onward, .refl⟩
    · exact ⟨b, .refl, .single onward⟩
  obtain ⟨meeting, fromFirst, fromSecond⟩ := church_rosser joins left right
  rw [← firstSettled.eq_of_reaches fromFirst,
    ← secondSettled.eq_of_reaches fromSecond]

/-! ### The passes reach it -/

private theorem reaches_stripSuffix (text : List Char) {suffix : List Char}
    (location : suffix ∈ locationSuffixes) :
    ReflTransGen Strips text (stripSuffix text suffix) := by
  unfold stripSuffix
  split
  · next rest found =>
      exact .single
        ⟨suffix, location, rest, dropEnding?_eq_some_iff.1 found, rfl⟩
  · exact .refl

private theorem reaches_stripPass (text : List Char) :
    ReflTransGen Strips text (stripPass text) := by
  have folded : ∀ suffixes ⊆ locationSuffixes, ∀ text,
      ReflTransGen Strips text (suffixes.foldl stripSuffix text) := by
    intro suffixes
    induction suffixes with
    | nil => exact fun _ _ => .refl
    | cons suffix rest inductionHypothesis =>
        intro inside text
        obtain ⟨location, later⟩ := List.cons_subset.1 inside
        exact (reaches_stripSuffix text location).trans
          (inductionHypothesis later _)
  exact folded locationSuffixes (List.Subset.refl _) text

private theorem reaches_stripLocations (text : List Char) :
    ReflTransGen Strips text (stripLocations text) := by
  fun_induction stripLocations text with
  | case1 text next shorter inductionHypothesis =>
      exact (reaches_stripPass text).trans inductionHypothesis
  | case2 text next stable => exact .refl

/-- The passes come to an end. -/
theorem exists_iterate_stripPass (text : List Char) :
    ∃ passes ≤ text.length, stripPass^[passes] text = stripLocations text := by
  fun_induction stripLocations text with
  | case1 text next shorter inductionHypothesis =>
      obtain ⟨passes, bound, reached⟩ := inductionHypothesis
      exact ⟨passes + 1, by omega, reached⟩
  | case2 text next stable => exact ⟨0, Nat.zero_le _, rfl⟩

private theorem length_stripSuffix_lt {text suffix : List Char}
    (given : suffix ≠ [])
    (ends : suffix <:+ text) :
    (stripSuffix text suffix).length < text.length := by
  obtain ⟨front, rfl⟩ := ends
  have kept := (trimEnd_prefix_self front).length_le
  have positive := List.length_pos_iff.2 given
  rw [stripSuffix, dropEnding?_eq_some_iff.2 rfl, List.length_append]
  dsimp only
  omega

private theorem settled_of_stripPass {text : List Char}
    (stable : stripPass text = text) : Settled text := by
  have given : ∀ suffix ∈ locationSuffixes, suffix ≠ [] := by decide
  have later : ∀ (suffixes : List (List Char)) (text : List Char),
      (suffixes.foldl stripSuffix text).length ≤ text.length := by
    intro suffixes
    induction suffixes with
    | nil => exact fun _ => Nat.le_refl _
    | cons suffix rest inductionHypothesis =>
        intro text
        exact Nat.le_trans (inductionHypothesis _)
          (stripSuffix_prefix_self text suffix).length_le
  unfold stripPass at stable
  unfold Settled
  generalize locationSuffixes = suffixes at stable given
  induction suffixes with
  | nil =>
      intro suffix member
      cases member
  | cons suffix rest inductionHypothesis =>
      -- A step that takes something off is not made up for by the later ones.
      rw [List.foldl_cons] at stable
      have whole : text.length ≤ (stripSuffix text suffix).length := by
        have shrinks := later rest (stripSuffix text suffix)
        rw [stable] at shrinks
        exact shrinks
      have unchanged : stripSuffix text suffix = text :=
        (stripSuffix_prefix_self text suffix).eq_of_length_le whole
      rw [unchanged] at stable
      obtain ⟨suffixGiven, restGiven⟩ := List.forall_mem_cons.1 given
      refine List.forall_mem_cons.2
        ⟨?_, inductionHypothesis stable restGiven⟩
      rw [← Bool.not_eq_true, endsWith_iff]
      intro ends
      have shorter := length_stripSuffix_lt suffixGiven ends
      omega

private theorem settled_stripLocations (text : List Char) :
    Settled (stripLocations text) :=
  settled_of_stripPass (stripPass_stripLocations text)

private theorem stripLocations_of_strips {text rest : List Char}
    (strips : Strips text rest) : stripLocations text = stripLocations rest :=
  settled_unique (reaches_stripLocations text)
    ((ReflTransGen.single strips).trans (reaches_stripLocations rest))
    (settled_stripLocations text) (settled_stripLocations rest)

/-! ### Locations behind a type text -/

private theorem normalize_append_location {text suffix : List Char}
    (filled : ∃ c ∈ text, isBlank c = false)
    (location : suffix ∈ locationSuffixes) :
    normalize (text ++ suffix) = normalize text := by
  rw [normalize, trim, trimStart_append filled,
    trimEnd_append_location _ location, normalize, trim]
  exact stripLocations_of_strips ⟨suffix, location, _, rfl, rfl⟩

private theorem normalize_append_blanks {text blanks : List Char}
    (filled : ∃ c ∈ text, isBlank c = false)
    (blank : ∀ c ∈ blanks, isBlank c = true) :
    normalize (text ++ blanks) = normalize text := by
  rw [normalize, trim, trimStart_append filled, trimEnd_append_blanks _ blank,
    normalize, trim]

/-- Locations and blanks that stand behind a type text, in any number. -/
def IsTail (pieces : List (List Char)) : Prop :=
  ∀ piece ∈ pieces,
    piece ∈ locationSuffixes ∨ ∀ c ∈ piece, isBlank c = true

private theorem normalize_append_tail {pieces : List (List Char)}
    (tail : IsTail pieces) {text : List Char}
    (filled : ∃ c ∈ text, isBlank c = false) :
    normalize (text ++ pieces.flatten) = normalize text := by
  induction pieces generalizing text with
  | nil => rw [List.flatten_nil, List.append_nil]
  | cons piece rest inductionHypothesis =>
      obtain ⟨first, later⟩ := List.forall_mem_cons.1 tail
      have stillFilled : ∃ c ∈ text ++ piece, isBlank c = false := by
        obtain ⟨c, member, notBlank⟩ := filled
        exact ⟨c, List.mem_append_left piece member, notBlank⟩
      rw [List.flatten_cons, ← List.append_assoc,
        inductionHypothesis later stillFilled]
      rcases first with location | blank
      · exact normalize_append_location filled location
      · exact normalize_append_blanks filled blank

/-! ### What is read off the normal form -/

private theorem width_eq_ok_iff {type : String} {member : Datum} {bytes : Nat} :
    width type member = .ok bytes ↔
      normalWidth? (normalize type.toList) = .ok (some bytes) := by
  by_cases empty : type.isEmpty = true
  · rw [width, if_pos empty, String.isEmpty_iff.1 empty, String.toList_empty,
      normalize_nil]
    constructor
    · intro failed
      cases failed
    · intro impossible
      cases impossible
  · rw [width, if_neg empty]
    cases normalWidth? (normalize type.toList) with
    | error fault => simp
    | ok found =>
        cases found with
        | none => simp
        | some other => simp

/-- Texts with one normal form have the same width or fail in the same way; only
an unknown type is named by its own text. -/
theorem width_of_normalize_eq {first second : String}
    (same : normalize first.toList = normalize second.toList)
    (member : Datum) :
    width first member = width second member ∨
      (width first member = .error (.unknownType first member) ∧
        width second member = .error (.unknownType second member)) := by
  have sameStruct : isStruct first.toList = isStruct second.toList := by
    rw [isStruct, isStruct, same]
  cases found : width first member with
  | ok bytes =>
      rw [width_eq_ok_iff, same, ← width_eq_ok_iff] at found
      exact Or.inl found.symm
  | error fault =>
      rcases width_eq_error_iff.1 found with ⟨struct, rfl⟩ | ⟨unknown, rfl⟩
      · rw [sameStruct] at struct
        rw [same]
        exact Or.inl (width_eq_error_iff.2 (Or.inl ⟨struct, rfl⟩)).symm
      · rw [same] at unknown
        exact Or.inr
          ⟨rfl, width_eq_error_iff.2 (Or.inr ⟨unknown, rfl⟩)⟩

private theorem readWidth_of_normalize_eq {first second : String}
    (same : normalize first.toList = normalize second.toList)
    (member : Datum) :
    readWidth first member = readWidth second member ∨
      (readWidth first member = .error (.unknownType first member) ∧
        readWidth second member = .error (.unknownType second member)) := by
  simp only [readWidth, same]
  split
  · exact Or.inl rfl
  · exact width_of_normalize_eq same member

private theorem readLength_of_normalize_eq {first second : List Char}
    (same : normalize first = normalize second) :
    readLength first = readLength second := by
  simp only [readLength, dimensionFault?, staticLength?, same]

/-- Data locations say nothing about a type.  With locations and blanks behind
it, in any number and order, a type text has the normal form that it has by
itself.  The passes reach that form, which is trimmed, ends in no location and
is its own normal form.  So the type belongs to the same classes, has the same
length, and has the same width or fails in the same way; an unknown type alone
is named by its own text. -/
theorem locations_change_nothing (type located : String)
    {pieces : List (List Char)} (tail : IsTail pieces)
    (filled : ∃ c ∈ type.toList, isBlank c = false)
    (isLocated : located.toList = type.toList ++ pieces.flatten)
    (member : Datum) :
    normalize located.toList = normalize type.toList ∧
      (∃ passes ≤ (trim located.toList).length,
        stripPass^[passes] (trim located.toList) = normalize type.toList) ∧
      trim (normalize type.toList) = normalize type.toList ∧
      (∀ suffix ∈ locationSuffixes,
        endsWith (normalize type.toList) suffix = false) ∧
      normalize (normalize type.toList) = normalize type.toList ∧
      isArray located.toList = isArray type.toList ∧
      isStruct located.toList = isStruct type.toList ∧
      readLength located.toList = readLength type.toList ∧
      (readWidth located member = readWidth type member ∨
        (readWidth located member = .error (.unknownType located member) ∧
          readWidth type member = .error (.unknownType type member))) := by
  have same : normalize located.toList = normalize type.toList := by
    rw [isLocated]
    exact normalize_append_tail tail filled
  refine ⟨same, ?_,
    trim_eq_self (startsFilled_normalize _) (endsFilled_normalize _),
    settled_stripLocations _, normalize_normalize _, ?_, ?_,
    readLength_of_normalize_eq same, readWidth_of_normalize_eq same member⟩
  · rw [← same]
    exact exists_iterate_stripPass _
  · rw [isArray, isArray, same]
  · rw [isStruct, isStruct, same]

/-- The first location behind the type joins the one that it already has. -/
theorem locations_of_array_change_nothing :
    IsTail [" ref".toList, ['\t'], " memory".toList, ['\n']] ∧
      normalize "uint8[4] storage ref\t memory\n".toList =
        "uint8[4]".toList ∧
      isArray "uint8[4] storage ref\t memory\n".toList = true ∧
      readLength "uint8[4] storage ref\t memory\n".toList =
        readLength "uint8[4] storage".toList := by
  have tail : IsTail
      [" ref".toList, ['\t'], " memory".toList, ['\n']] := by
    refine List.forall_mem_cons.2 ⟨Or.inl (by decide),
      List.forall_mem_cons.2 ⟨Or.inr (List.forall_mem_singleton.2 rfl),
        List.forall_mem_cons.2 ⟨Or.inl (by decide),
          List.forall_mem_singleton.2
            (Or.inr (List.forall_mem_singleton.2 rfl))⟩⟩⟩
  have normal : normalize "uint8[4] storage".toList = "uint8[4]".toList := by
    decide +kernel
  obtain ⟨same, -, -, -, -, sameArray, -, sameLength, -⟩ :=
    locations_change_nothing "uint8[4] storage"
      "uint8[4] storage ref\t memory\n" tail ⟨'u', by decide, rfl⟩ (by decide)
      (.text "")
  refine ⟨tail, same.trans normal, ?_, sameLength⟩
  rw [sameArray, isArray_iff, normal]
  decide

end TypeName

end ContractAtlas
