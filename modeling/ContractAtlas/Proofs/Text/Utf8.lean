/-
Encoded text is decoded as it was.

The decoder takes the bytes of one character in the steps in which they were
written: a lead byte, then as many continuation bytes as it promises, each
within the bounds that the lead byte sets.  So text that is cut out of a
content at the borders of characters is decoded without a malformed piece.
-/

import ContractAtlas.Text.Utf8

namespace ContractAtlas.Text.Utf8

/-! ### Steps of the decoder -/

private theorem start_of_one {code : Nat} (small : code < 0x80) :
    start (UInt8.ofNat code) = .whole (Char.ofNat code) := by
  have byte : (UInt8.ofNat code).toNat = code :=
    UInt8.toNat_ofNat_of_lt' (Nat.lt_trans small (by decide))
  simp only [start, byte, small, if_true]

private theorem start_of_two {code : Nat} (low : 0xC2 ≤ code)
    (high : code < 0xE0) :
    start (UInt8.ofNat code) = .partly ⟨code - 0xC0, 0x80, 0xBF, 0⟩ := by
  have byte : (UInt8.ofNat code).toNat = code :=
    UInt8.toNat_ofNat_of_lt' (Nat.lt_trans high (by decide))
  have notWhole : ¬ code < 0x80 := by omega
  have notStray : ¬ code < 0xC2 := by omega
  simp only [start, byte, notWhole, notStray, high, if_true, if_false]

private theorem start_of_three {code : Nat} (low : 0xE0 ≤ code)
    (high : code < 0xF0) :
    start (UInt8.ofNat code) =
      .partly
        ⟨code - 0xE0, if code = 0xE0 then 0xA0 else 0x80,
          if code = 0xED then 0x9F else 0xBF, 1⟩ := by
  have byte : (UInt8.ofNat code).toNat = code :=
    UInt8.toNat_ofNat_of_lt' (Nat.lt_trans high (by decide))
  have notWhole : ¬ code < 0x80 := by omega
  have notStray : ¬ code < 0xC2 := by omega
  have notTwo : ¬ code < 0xE0 := by omega
  simp only [start, byte, notWhole, notStray, notTwo, high, if_true, if_false]

private theorem start_of_four {code : Nat} (low : 0xF0 ≤ code)
    (high : code < 0xF5) :
    start (UInt8.ofNat code) =
      .partly
        ⟨code - 0xF0, if code = 0xF0 then 0x90 else 0x80,
          if code = 0xF4 then 0x8F else 0xBF, 2⟩ := by
  have byte : (UInt8.ofNat code).toNat = code :=
    UInt8.toNat_ofNat_of_lt' (Nat.lt_trans high (by decide))
  have notWhole : ¬ code < 0x80 := by omega
  have notStray : ¬ code < 0xC2 := by omega
  have notTwo : ¬ code < 0xE0 := by omega
  have notThree : ¬ code < 0xF0 := by omega
  simp only [start, byte, notWhole, notStray, notTwo, notThree, high, if_true,
    if_false]

section

variable {bits low high code : Nat} (lower : low ≤ code) (upper : code ≤ high)
  (byte : code < 0x100) (rest : List UInt8)
include lower upper byte

private theorem pieces_last :
    pieces (some ⟨bits, low, high, 0⟩) (UInt8.ofNat code :: rest) =
      some (Char.ofNat (bits * 0x40 + (code - 0x80))) :: pieces none rest := by
  have isCode : (UInt8.ofNat code).toNat = code :=
    UInt8.toNat_ofNat_of_lt' byte
  rw [pieces, isCode, if_pos ⟨lower, upper⟩]

private theorem pieces_more (after : Nat) :
    pieces (some ⟨bits, low, high, after + 1⟩) (UInt8.ofNat code :: rest) =
      pieces (some ⟨bits * 0x40 + (code - 0x80), 0x80, 0xBF, after⟩) rest := by
  have isCode : (UInt8.ofNat code).toNat = code :=
    UInt8.toNat_ofNat_of_lt' byte
  rw [pieces, isCode, if_pos ⟨lower, upper⟩]

end

private theorem pieces_lead {byte : UInt8} {pending : Pending}
    (begun : start byte = .partly pending) (rest : List UInt8) :
    pieces none (byte :: rest) = pieces (some pending) rest := by
  rw [pieces, begun]

/-! ### Characters -/

/-- The bytes of a character are decoded as that character, whatever follows. -/
theorem pieces_encodeChar (c : Char) (rest : List UInt8) :
    pieces none (encodeChar c ++ rest) = some c :: pieces none rest := by
  have valid : c.toNat < 0xD800 ∨ 0xDFFF < c.toNat ∧ c.toNat < 0x110000 :=
    c.valid
  have decoded : ∀ code, code = c.toNat → Char.ofNat code = c := by
    rintro code rfl
    exact Char.ofNat_toNat c
  unfold encodeChar
  dsimp only
  split
  · rename_i one
    rw [List.singleton_append, pieces, start_of_one one, Char.ofNat_toNat]
  · rename_i notOne
    split
    · rename_i two
      rw [List.cons_append, pieces_lead (start_of_two (by omega) (by omega)),
        List.singleton_append, pieces_last (by omega) (by omega) (by omega),
        decoded _ (by omega)]
    · rename_i notTwo
      split
      · rename_i three
        -- The bounds of the second byte leave out short forms and surrogates.
        have lower : (if 0xE0 + c.toNat / 0x1000 = 0xE0 then 0xA0 else 0x80) ≤
            0x80 + c.toNat / 0x40 % 0x40 := by
          split <;> omega
        have upper : 0x80 + c.toNat / 0x40 % 0x40 ≤
            if 0xE0 + c.toNat / 0x1000 = 0xED then 0x9F else 0xBF := by
          split <;> omega
        rw [List.cons_append,
          pieces_lead (start_of_three (by omega) (by omega)),
          List.cons_append, pieces_more lower upper (by omega),
          List.singleton_append, pieces_last (by omega) (by omega) (by omega),
          decoded _ (by omega)]
      · rename_i notThree
        have lower : (if 0xF0 + c.toNat / 0x40000 = 0xF0 then 0x90 else 0x80) ≤
            0x80 + c.toNat / 0x1000 % 0x40 := by
          split <;> omega
        have upper : 0x80 + c.toNat / 0x1000 % 0x40 ≤
            if 0xF0 + c.toNat / 0x40000 = 0xF4 then 0x8F else 0xBF := by
          split <;> omega
        rw [List.cons_append,
          pieces_lead (start_of_four (by omega) (by omega)),
          List.cons_append, pieces_more lower upper (by omega),
          List.cons_append, pieces_more (by omega) (by omega) (by omega),
          List.singleton_append, pieces_last (by omega) (by omega) (by omega),
          decoded _ (by omega)]

private theorem length_encodeChar (c : Char) :
    (encodeChar c).length = c.utf8Size := by
  have bounded (bound : Nat) (word : bound < UInt32.size) :
      c.val ≤ UInt32.ofNatLT bound word ↔ c.toNat < bound + 1 := by
    rw [UInt32.le_iff_toNat_le, UInt32.toNat_ofNatLT]
    exact Nat.lt_succ_iff.symm
  unfold encodeChar Char.utf8Size
  simp only [bounded, Nat.reduceAdd, apply_ite List.length, List.length_cons,
    List.length_nil]

/-! ### Texts -/

theorem encode_append (left right : List Char) :
    encode (left ++ right) = encode left ++ encode right :=
  List.flatMap_append

private theorem pieces_encode (text : List Char) :
    pieces none (encode text) = text.map some := by
  induction text with
  | nil => rfl
  | cons c rest inductionHypothesis =>
      rw [encode, List.flatMap_cons, pieces_encodeChar, List.map_cons]
      exact congrArg (some c :: ·) inductionHypothesis

theorem decodeLossy_encode (text : List Char) :
    decodeLossy (encode text) = text := by
  rw [decodeLossy, pieces_encode, List.map_map]
  exact List.map_id text

theorem length_encode (text : List Char) :
    (encode text).length = (String.ofList text).utf8ByteSize := by
  induction text with
  | nil => rfl
  | cons c rest inductionHypothesis =>
      rw [String.ofList_cons, String.utf8ByteSize_append,
        String.utf8ByteSize_singleton, ← inductionHypothesis,
        ← length_encodeChar, encode, List.flatMap_cons, List.length_append]
      rfl

/-! ### Cutting at the borders of characters -/

private theorem cutPosition_of_le {length position : Nat}
    (inside : position ≤ length) :
    cutPosition length (position : Int) = position := by
  have notNegative : ¬ (position : Int) < 0 := by omega
  rw [cutPosition]
  simp only [notNegative, if_false, Int.toNat_natCast]
  exact Nat.min_eq_left inside

theorem slice_encode (before inside after : List Char) :
    slice (encode (before ++ inside ++ after)) (encode before).length
        ((encode before).length + (encode inside).length) =
      encode inside := by
  rw [encode_append, encode_append, slice, List.length_append,
    List.length_append, ← Int.natCast_add, cutPosition_of_le (by omega),
    cutPosition_of_le (by omega), Nat.add_sub_cancel_left, List.append_assoc,
    List.drop_left, List.take_left]

end ContractAtlas.Text.Utf8
