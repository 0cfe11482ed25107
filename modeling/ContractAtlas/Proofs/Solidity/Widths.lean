/-
The classes of type texts.

A type text is an array, a struct, a mapping, one of the types with a width of
their own, or unknown.  The tests for the classes look at the start and at the
end of the normalized text, each in its own way, and they never contradict each
other: what is taken for an array has the width of a slot, exactly the structs
have no width because they have to be opened, and every other text has a width
that fits into a slot or is unknown.
-/

import ContractAtlas.Proofs.Solidity.Normal

namespace ContractAtlas.TypeName

open Text

/-! ### Widths fit into a slot -/

/-- A width is at least one byte and at most a slot. -/
def InSlot (bytes : Nat) : Prop :=
  1 ≤ bytes ∧ bytes ≤ slotSize

instance (bytes : Nat) : Decidable (InSlot bytes) :=
  inferInstanceAs (Decidable (1 ≤ bytes ∧ bytes ≤ slotSize))

theorem inSlot_slotSize : InSlot slotSize := by
  decide

private theorem inSlot_of_widthOfBits? {bits bytes : Nat}
    (found : widthOfBits? bits = some bytes) : InSlot bytes := by
  unfold widthOfBits? at found
  split at found
  · rename_i bounds
    cases found
    unfold InSlot
    omega
  · cases found

private theorem inSlot_of_bytesWidth? {normal : List Char} {bytes : Nat}
    (found : bytesWidth? normal = some bytes) : InSlot bytes := by
  obtain ⟨digits, -, found⟩ := Option.bind_eq_some_iff.1 found
  split at found
  · simp only at found
    split at found
    · rename_i bounds
      cases found
      exact bounds
    · cases found
  · cases found

private theorem inSlot_of_integerWidth? {normal : List Char} {bytes : Nat}
    (found : integerWidth? normal = some bytes) : InSlot bytes := by
  obtain ⟨digits, -, found⟩ := Option.bind_eq_some_iff.1 found
  split at found
  · exact inSlot_of_widthOfBits? found
  · split at found
    · exact inSlot_of_widthOfBits? found
    · cases found

private theorem inSlot_of_fixedPointWidth? {normal : List Char} {bytes : Nat}
    (found : fixedPointWidth? normal = some bytes) : InSlot bytes := by
  obtain ⟨rest, -, found⟩ := Option.bind_eq_some_iff.1 found
  split at found
  · exact inSlot_of_widthOfBits? found
  · simp only at found
    split at found
    · split at found
      · exact inSlot_of_widthOfBits? found
      · cases found
    · cases found

private theorem inSlot_of_normalWidth? {normal : List Char} {bytes : Nat}
    (found : normalWidth? normal = .ok (some bytes)) : InSlot bytes := by
  unfold normalWidth? at found
  split at found
  · cases found
    exact inSlot_slotSize
  · split at found
    · cases found
      decide
    · split at found
      · cases found
        decide
      · split at found
        · cases found
          decide
        · split at found
          · cases found
            exact inSlot_slotSize
          · split at found
            · cases found
            · split at found
              · cases found
                split <;> decide
              · -- The numbered types are tried one after the other.
                have numbered := Except.ok.inj found
                cases asBytes : bytesWidth? normal with
                | some width =>
                    rw [asBytes] at numbered
                    cases numbered
                    exact inSlot_of_bytesWidth? asBytes
                | none =>
                    cases asInteger : integerWidth? normal with
                    | some width =>
                        rw [asBytes, asInteger] at numbered
                        cases numbered
                        exact inSlot_of_integerWidth? asInteger
                    | none =>
                        rw [asBytes, asInteger] at numbered
                        exact inSlot_of_fixedPointWidth? numbered

private theorem inSlot_of_width {type : String} {member : Datum} {bytes : Nat}
    (found : width type member = .ok bytes) : InSlot bytes := by
  unfold width at found
  split at found
  · cases found
  · split at found
    · cases found
    · cases found
    · next read =>
        cases found
        exact inSlot_of_normalWidth? read

theorem inSlot_of_readWidth {type : String} {member : Datum} {bytes : Nat}
    (found : readWidth type member = .ok bytes) : InSlot bytes := by
  simp only [readWidth] at found
  split at found
  · cases found
  · exact inSlot_of_width found

/-! ### Arrays and structs -/

theorem isArray_iff {text : List Char} :
    isArray text = true ↔
      isMapping (normalize text) = false ∧ [']'] <:+ normalize text := by
  simp only [isArray, Bool.and_eq_true, Bool.not_eq_true', endsWith_iff]

private theorem isMapping_of_struct {normal : List Char}
    (struct : "struct ".toList <+: normal) : isMapping normal = false := by
  obtain ⟨rest, rfl⟩ := struct
  rfl

/-- The second normalization, inside the test for arrays, changes nothing. -/
theorem isStruct_iff {text : List Char} :
    isStruct text = true ↔
      "struct ".toList <+: normalize text ∧ ¬ [']'] <:+ normalize text := by
  simp only [isStruct, Bool.and_eq_true, Bool.not_eq_true', startsWith_iff]
  rw [← Bool.not_eq_true, isArray_iff, normalize_normalize]
  constructor
  · intro isStruct
    obtain ⟨struct, notArray⟩ := isStruct
    refine ⟨struct, ?_⟩
    intro closing
    exact notArray ⟨isMapping_of_struct struct, closing⟩
  · intro opens
    obtain ⟨struct, unclosed⟩ := opens
    refine ⟨struct, ?_⟩
    intro array
    exact unclosed array.2

private theorem isStruct_of_isArray {text : List Char}
    (array : isArray text = true) :
    isStruct text = false := by
  rw [← Bool.not_eq_true, isStruct_iff]
  intro struct
  exact struct.2 (isArray_iff.1 array).2

/-! ### What a type text can come to -/

/-- Only a struct stops the search for a width. -/
theorem normalWidth?_eq_error_iff {normal : List Char} {fault : Fault} :
    normalWidth? normal = .error fault ↔
      ("struct ".toList <+: normal ∧ ¬ [']'] <:+ normal) ∧
        fault = .structNotFlattened (String.ofList normal) := by
  constructor
  · intro failed
    unfold normalWidth? at failed
    split at failed
    · cases failed
    · next unclosed =>
      split at failed
      · cases failed
      · split at failed
        · cases failed
        · split at failed
          · cases failed
          · split at failed
            · cases failed
            · split at failed
              · next struct =>
                rw [Bool.or_eq_true, not_or, endsWith_iff] at unclosed
                cases failed
                exact ⟨⟨startsWith_iff.1 struct, unclosed.2⟩, rfl⟩
              · split at failed
                · cases failed
                · cases failed
  · intro stops
    obtain ⟨⟨struct, unclosed⟩, same⟩ := stops
    have notClosed : endsWith normal [']'] = false := by
      rwa [← Bool.not_eq_true, endsWith_iff]
    have notMapping := isMapping_of_struct struct
    obtain ⟨rest, rfl⟩ := struct
    rw [normalWidth?, notMapping, notClosed, same]
    rfl

theorem width_eq_error_iff {type : String} {member : Datum} {fault : Fault} :
    width type member = .error fault ↔
      (isStruct type.toList = true ∧
        fault = .structNotFlattened (String.ofList (normalize type.toList))) ∨
      (normalWidth? (normalize type.toList) = .ok none ∧
        fault = .unknownType type member) := by
  by_cases empty : type.isEmpty = true
  · rw [width, if_pos empty, String.isEmpty_iff.1 empty, String.toList_empty,
      isStruct_iff, normalize_nil]
    constructor
    · intro failed
      cases failed
      exact Or.inr ⟨rfl, rfl⟩
    · intro ends
      rcases ends with ⟨⟨struct, -⟩, -⟩ | ⟨-, same⟩
      · cases List.prefix_nil.1 struct
      · rw [same]
  · rw [width, if_neg empty, isStruct_iff, ← normalWidth?_eq_error_iff]
    cases normalWidth? (normalize type.toList) with
    | error other => simp
    | ok found =>
        cases found with
        | none => simp [eq_comm]
        | some bytes => simp

private theorem width_cases (type : String) (member : Datum) :
    (∃ bytes, width type member = .ok bytes ∧ InSlot bytes) ∨
      (∃ fault, width type member = .error fault ∧ fault.isLayout = true) ∨
      width type member = .error (.unknownType type member) := by
  cases found : width type member with
  | ok bytes => exact Or.inl ⟨bytes, rfl, inSlot_of_width found⟩
  | error fault =>
      rcases width_eq_error_iff.1 found with ⟨-, same⟩ | ⟨-, same⟩
      · exact Or.inr (Or.inl ⟨fault, rfl, by rw [same]; rfl⟩)
      · exact Or.inr (Or.inr (by rw [same]))

private theorem exists_layout_fault_iff (type : String) (member : Datum) :
    (∃ fault, width type member = .error fault ∧ fault.isLayout = true) ↔
      isStruct type.toList = true := by
  simp only [width_eq_error_iff]
  constructor
  · intro failed
    obtain ⟨fault, ends, layout⟩ := failed
    rcases ends with ⟨struct, -⟩ | ⟨-, same⟩
    · exact struct
    · rw [same] at layout
      cases layout
  · intro struct
    exact ⟨_, Or.inl ⟨struct, rfl⟩, rfl⟩

/-! ### Numbers that are too long -/

private theorem lt_length_of_isOverlong {digits : List Char}
    (long : isOverlong digits = true) : decimalLimit < digits.length :=
  Nat.lt_of_lt_of_le (of_decide_eq_true long) List.countP_le_length

private theorem readWidth_cases (type : String) (member : Datum) :
    readWidth type member = width type member ∨
      ∃ digits, decimalLimit < digits ∧
        readWidth type member = .error (.numberTooLong digits) := by
  simp only [readWidth]
  split
  · next long => exact Or.inr ⟨_, lt_length_of_isOverlong long, rfl⟩
  · exact Or.inl rfl

private theorem lt_of_overlongDimension? {text : List Char} {digits : Nat}
    (found : overlongDimension? text = some digits) : decimalLimit < digits := by
  fun_induction overlongDimension? text with
  | case1 => cases found
  | case2 text number rest isDimension given long =>
      cases found
      exact lt_length_of_isOverlong long
  | case3 text number rest isDimension given short shorter inductionHypothesis =>
      exact inductionHypothesis found
  | case4 => cases found
  | case5 => cases found

private theorem readLength_cases (text : List Char) :
    readLength text = .ok (staticLength? text) ∨
      ∃ digits, decimalLimit < digits ∧
        readLength text = .error (.numberTooLong digits) := by
  cases failed : dimensionFault? text with
  | none =>
      rw [readLength, failed]
      exact Or.inl rfl
  | some fault =>
      rw [readLength, failed]
      simp only [dimensionFault?] at failed
      split at failed
      · cases failed
      · obtain ⟨digits, long, rfl⟩ := Option.map_eq_some_iff.1 failed
        exact Or.inr ⟨digits, lt_of_overlongDimension? long, rfl⟩

/-- The classes of type texts agree on every text.  A type has a width from one
byte to a slot, or it is a struct that has to be opened, or it is unknown and
the fault names it and its member; the second happens exactly for the structs.
A type with a static length is an array, an array is no struct, and its width is
the slot.  When the numbers in a type text are read, nothing changes unless one
of them has too many digits. -/
theorem width_agrees_with_classes (type : String) (member : Datum) :
    ((∃ bytes, width type member = .ok bytes ∧ 1 ≤ bytes ∧ bytes ≤ 32) ∨
        (∃ fault, width type member = .error fault ∧ fault.isLayout = true) ∨
        width type member = .error (.unknownType type member)) ∧
      ((∃ fault, width type member = .error fault ∧ fault.isLayout = true) ↔
        isStruct type.toList = true) ∧
      ((staticLength? type.toList).isSome = true →
        isArray type.toList = true) ∧
      (isArray type.toList = true →
        isStruct type.toList = false ∧ width type member = .ok 32) ∧
      (readWidth type member = width type member ∨
        ∃ digits, 4300 < digits ∧
          readWidth type member = .error (.numberTooLong digits)) ∧
      (readLength type.toList = .ok (staticLength? type.toList) ∨
        ∃ digits, 4300 < digits ∧
          readLength type.toList = .error (.numberTooLong digits)) := by
  refine ⟨width_cases type member, exists_layout_fault_iff type member, ?_, ?_,
    readWidth_cases type member, readLength_cases type.toList⟩
  · intro isStatic
    obtain ⟨length, found⟩ := Option.isSome_iff_exists.1 isStatic
    exact isArray_of_staticLength? found
  · intro array
    exact ⟨isStruct_of_isArray array, width_of_isArray member array⟩

end ContractAtlas.TypeName
