/-
Slot keys and slot indices.

Reading a key in base sixteen gives back the index that it was written from,
whatever the size of the index.  So different slots have different keys.  The
keys of the slots that a word can count have the same length, and so they come
in the order of the slots.
-/

import Mathlib.Tactic.IntervalCases
import ContractAtlas.Proofs.Text.Numerals
import ContractAtlas.Storage.SlotKey

namespace ContractAtlas

namespace Text

/-! ### Padded numbers -/

private theorem isNumeral_paddedHex (width value : Nat) :
    IsNumeral 16 (paddedHex width value) := by
  intro c found
  rcases List.mem_append.1 found with padding | digits
  · exact ⟨0, by decide, (List.mem_replicate.1 padding).2⟩
  · exact isNumeral_toDigits (by decide) value c digits

theorem paddedHex_ne_nil (width value : Nat) : paddedHex width value ≠ [] := by
  intro empty
  exact Nat.toDigits_ne_nil (List.append_eq_nil_iff.1 empty).2

private theorem readDigitsFrom_zeros (count : Nat) :
    readDigitsFrom hexDigitValue? 16 0 (List.replicate count '0') = some 0 := by
  induction count with
  | zero => rfl
  | succ count inductionHypothesis =>
      have step := readDigitsFrom_cons hexNumerals 0 0 (by decide)
        (List.replicate count '0')
      exact step.trans inductionHypothesis

private theorem readDigits_paddedHex (width value : Nat) :
    readDigits hexDigitValue? 16 (paddedHex width value) = some value := by
  rw [readDigits_eq_readDigitsFrom hexNumerals
      (isNumeral_paddedHex width value) (paddedHex_ne_nil width value),
    paddedHex, readDigitsFrom_append hexNumerals, readDigitsFrom_zeros,
    Option.bind_some, readDigitsFrom_toDigits hexNumerals]
  intro c padding
  exact ⟨0, by decide, (List.mem_replicate.1 padding).2⟩

private theorem behindMarker?_hex {text : List Char} (hex : IsNumeral 16 text) :
    behindMarker? ['x', 'X'] ('0' :: 'x' :: text) = some text := by
  have marked : digitValue? '0' = some 0 ∧ 'x' ∈ ['x', 'X'] := by decide
  rw [behindMarker?, if_pos marked]
  rintro digits rfl
  obtain ⟨digit, small, underscore⟩ := hex '_' List.mem_cons_self
  exact digitChar_ne_underscore small underscore.symm

/-- Nothing is trimmed off a text that starts and ends with digits. -/
theorem trimNumber_marked {text : List Char} (hex : IsNumeral 16 text)
    (nonempty : text ≠ []) :
    trimNumber ('0' :: 'x' :: text) = '0' :: 'x' :: text := by
  apply trimNumber_eq_self
  · intro c first
    cases first
    decide
  · intro c last
    have inDigits : text.getLast? = some c := by
      rw [← last, List.getLast?_cons_cons]
      cases text with
      | nil => exact absurd rfl nonempty
      | cons digit rest => rw [List.getLast?_cons_cons]
    exact hex.not_blank (by decide) c (List.mem_of_getLast? inDigits)

/-! ### Numbers of a fixed width -/

theorem paddedHex_one {value : Nat} (small : value < 16) :
    paddedHex 1 value = [Nat.digitChar value] := by
  unfold paddedHex
  rw [Nat.toDigits_of_lt_base small]
  rfl

theorem paddedHex_succ {width : Nat} (positive : 0 < width) (value : Nat) :
    paddedHex (width + 1) value =
      paddedHex width (value / 16) ++ [Nat.digitChar (value % 16)] := by
  unfold paddedHex
  dsimp only
  rw [Nat.toDigits_eq_if (by decide)]
  split
  · rename_i small
    rw [Nat.div_eq_of_lt small, Nat.mod_eq_of_lt small, Nat.toDigits_zero,
      List.length_singleton, List.length_singleton, Nat.add_sub_cancel]
    congr 1
    obtain ⟨before, rfl⟩ := Nat.exists_eq_add_of_lt positive
    rw [Nat.zero_add, Nat.add_sub_cancel, List.replicate_succ']
  · rw [List.length_append, List.length_singleton, Nat.add_sub_add_right,
      List.append_assoc]

private theorem length_paddedHex {width value : Nat} (positive : 1 ≤ width)
    (small : value < 16 ^ width) : (paddedHex width value).length = width := by
  have fits := (Nat.length_toDigits_le_iff (by decide) positive).2 small
  rw [paddedHex, List.length_append, List.length_replicate]
  omega

private theorem digitChar_lt {left right : Nat} (less : left < right)
    (small : right < 16) : Nat.digitChar left < Nat.digitChar right := by
  interval_cases right <;> interval_cases left <;> decide

private theorem append_singleton_lt {left right : List Char}
    (sameLength : left.length = right.length) (less : left < right)
    (a b : Char) : left ++ [a] < right ++ [b] := by
  induction left generalizing right with
  | nil =>
      rw [List.length_nil, eq_comm, List.length_eq_zero_iff] at sameLength
      rw [sameLength] at less
      exact absurd less (List.not_lt_nil [])
  | cons c rest inductionHypothesis =>
      cases right with
      | nil => cases sameLength
      | cons d more =>
          rw [List.cons_append, List.cons_append, List.cons_lt_cons_iff]
          rcases List.cons_lt_cons_iff.1 less with before | ⟨same, later⟩
          · exact Or.inl before
          · exact Or.inr
              ⟨same, inductionHypothesis (Nat.succ.inj sameLength) later⟩

/-- Of two numbers of one width the smaller one comes first. -/
theorem paddedHex_lt {width left right : Nat} (positive : 1 ≤ width)
    (less : left < right) (small : right < 16 ^ width) :
    paddedHex width left < paddedHex width right := by
  induction width, positive using Nat.le_induction generalizing left right with
  | base =>
      rw [Nat.pow_one] at small
      rw [paddedHex_one small, paddedHex_one (by omega), List.cons_lt_cons_iff]
      exact Or.inl (digitChar_lt less small)
  | succ width positive inductionHypothesis =>
      rw [Nat.pow_succ] at small
      rw [paddedHex_succ positive, paddedHex_succ positive]
      -- The last digits count only if all digits before them agree.
      by_cases before : left / 16 < right / 16
      · apply append_singleton_lt
        · rw [length_paddedHex positive (by omega),
            length_paddedHex positive (by omega)]
        · exact inductionHypothesis before (by omega)
      · have same : left / 16 = right / 16 := by omega
        rw [same]
        apply List.append_left_lt
        rw [List.cons_lt_cons_iff]
        exact Or.inl (digitChar_lt (by omega) (Nat.mod_lt _ (by decide)))

/-! ### Keys -/

private theorem readHex_marked_paddedHex (width value : Nat) :
    readHex ('0' :: 'x' :: paddedHex width value) = some (value : Int) := by
  have hex := isNumeral_paddedHex width value
  rw [readHex, trimNumber_marked hex (paddedHex_ne_nil width value),
    readSigned, dropHexMarker, behindMarker?_hex hex, Option.getD_some,
    readDigits_paddedHex]
  · rfl
  · intro rest impossible
    cases impossible
  · intro rest impossible
    cases impossible

end Text

namespace Storage

private theorem slotIndex?_slotKey (index : Nat) :
    slotIndex? (slotKey index) = some (index : Int) := by
  rw [slotIndex?, slotKey, String.toList_ofList]
  exact Text.readHex_marked_paddedHex 64 index

theorem slotKey_injective {left right : Nat}
    (same : slotKey left = slotKey right) : left = right := by
  have indices := congrArg slotIndex? same
  rw [slotIndex?_slotKey, slotIndex?_slotKey] at indices
  exact Int.ofNat.inj (Option.some.inj indices)

private theorem slotKey_lt {left right : Nat} (less : left < right)
    (small : right < 2 ^ 256) : slotKey left < slotKey right := by
  have word : (2 : Nat) ^ 256 = 16 ^ 64 := by decide
  rw [word] at small
  rw [String.lt_iff, slotKey, slotKey, String.toList_ofList,
    String.toList_ofList]
  have digits := Text.paddedHex_lt (by decide) less small
  exact List.cons_lt_cons_iff.2
    (Or.inr ⟨rfl, List.cons_lt_cons_iff.2 (Or.inr ⟨rfl, digits⟩)⟩)

/-- A key is read back as the index that it was made from, whatever its size,
so no two slots share a key.  The key of an index that fits into a word is `0x`
and 64 digits of base sixteen, and such keys come in the order of their
indices. -/
theorem slotKeys_number_slots :
    (∀ index : Nat, slotKeyOf index = .ok (slotKey index) ∧
        slotIndex? (slotKey index) = some (index : Int)) ∧
      (∀ left right : Nat, slotKey left = slotKey right → left = right) ∧
      (∀ index < 2 ^ 256, ∃ digits : List Char,
        (slotKey index).toList = '0' :: 'x' :: digits ∧ digits.length = 64 ∧
          ∀ c ∈ digits, c ∈ "0123456789abcdef".toList) ∧
      (∀ left < 2 ^ 256, ∀ right < 2 ^ 256,
        (left < right ↔ slotKey left < slotKey right)) := by
  refine ⟨fun index => ⟨rfl, slotIndex?_slotKey index⟩,
    fun _ _ => slotKey_injective, ?_, ?_⟩
  · intro index small
    have word : (2 : Nat) ^ 256 = 16 ^ 64 := by decide
    have lowercase : ∀ digit < 16,
        Nat.digitChar digit ∈ "0123456789abcdef".toList := by decide
    refine ⟨Text.paddedHex 64 index, String.toList_ofList,
      Text.length_paddedHex (by decide) (by rw [← word]; exact small), ?_⟩
    intro c found
    obtain ⟨digit, isDigit, rfl⟩ := Text.isNumeral_paddedHex 64 index c found
    exact lowercase digit isDigit
  · intro left leftSmall right rightSmall
    constructor
    · intro less
      exact slotKey_lt less rightSmall
    · intro before
      rcases Nat.lt_trichotomy left right with less | same | greater
      · exact less
      · rw [same] at before
        exact absurd before (String.lt_irrefl _)
      · exact absurd before (String.lt_asymm (slotKey_lt greater leftSmall))

end Storage

end ContractAtlas
