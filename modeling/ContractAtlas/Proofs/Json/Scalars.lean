/-
Strings and integers of JSON text.

Reading undoes writing: a string whatever its characters, an integer whatever
its size.  A character beyond the basic plane goes through a pair of escapes,
and no other character is written with half of such a pair.
-/

import ContractAtlas.Json.Printer
import ContractAtlas.Json.Reader
import ContractAtlas.Proofs.Storage.SlotKey
import ContractAtlas.Proofs.Text.Split

namespace ContractAtlas

/-! ### Escapes -/

namespace Json

private theorem paddedHex_four {unit : Nat} (small : unit < 0x10000) :
    Text.paddedHex 4 unit =
      [Nat.digitChar (unit / 16 / 16 / 16), Nat.digitChar (unit / 16 / 16 % 16),
        Nat.digitChar (unit / 16 % 16), Nat.digitChar (unit % 16)] := by
  rw [Text.paddedHex_succ (by decide), Text.paddedHex_succ (by decide),
    Text.paddedHex_succ (by decide), Text.paddedHex_one (by omega)]
  rfl

private theorem digitChar_isAscii {digit : Nat} (small : digit < 16) :
    (Nat.digitChar digit).toNat < 0x80 := by
  interval_cases digit <;> decide

private theorem readUnit?_paddedHex {unit : Nat} (small : unit < 0x10000)
    (rest : List Char) :
    readUnit? (Text.paddedHex 4 unit ++ rest) = some (unit, rest) := by
  have first : unit / 16 / 16 / 16 < 16 := by omega
  have second : unit / 16 / 16 % 16 < 16 := Nat.mod_lt _ (by decide)
  have third : unit / 16 % 16 < 16 := Nat.mod_lt _ (by decide)
  have fourth : unit % 16 < 16 := Nat.mod_lt _ (by decide)
  rw [paddedHex_four small]
  unfold readUnit?
  simp only [List.cons_append, List.nil_append,
    if_pos (digitChar_isAscii first), if_pos (digitChar_isAscii second),
    if_pos (digitChar_isAscii third), if_pos (digitChar_isAscii fourth),
    Text.hexDigitValue?_digitChar first, Text.hexDigitValue?_digitChar second,
    Text.hexDigitValue?_digitChar third, Text.hexDigitValue?_digitChar fourth,
    bind, Option.bind_some]
  congr 2
  omega

private theorem readEscape?_unit {unit : Nat} (small : unit < 0x10000)
    (whole : unit < 0xD800 ∨ 0xE000 ≤ unit) (rest : List Char) :
    readEscape? ('u' :: Text.paddedHex 4 unit ++ rest) =
      some (Char.ofNat unit, rest) := by
  rw [List.cons_append, readEscape?, readUnit?_paddedHex small]
  dsimp only
  rw [if_neg (by omega), if_neg (by omega)]

/-- The two escapes of a character beyond the basic plane are joined. -/
theorem readEscape?_pair {offset : Nat} (small : offset < 0x100000)
    (rest : List Char) :
    readEscape? ('u' :: Text.paddedHex 4 (0xD800 + offset / 0x400) ++
        (unitEscape (0xDC00 + offset % 0x400) ++ rest)) =
      some (Char.ofNat (0x10000 + offset), rest) := by
  have high : 0xD800 + offset / 0x400 < 0x10000 := by omega
  have low : 0xDC00 + offset % 0x400 < 0x10000 := by omega
  have joins : 0x10000 + (0xD800 + offset / 0x400 - 0xD800) * 0x400 +
      (0xDC00 + offset % 0x400 - 0xDC00) = 0x10000 + offset := by omega
  have joined : joinUnits? (0xD800 + offset / 0x400)
      (unitEscape (0xDC00 + offset % 0x400) ++ rest) =
        some (Char.ofNat (0x10000 + offset), rest) := by
    rw [unitEscape, List.cons_append, List.cons_append, joinUnits?,
      readUnit?_paddedHex low]
    dsimp only
    rw [if_pos (by omega), joins]
  rw [List.cons_append, readEscape?, readUnit?_paddedHex high]
  dsimp only
  rw [if_pos (by omega), joined]
  rfl

/-! ### Strings -/

private theorem readStringRest?_escape {text rest : List Char} {c : Char}
    (found : readEscape? text = some (c, rest)) (fuel : Nat) :
    readStringRest? (fuel + 1) ('\\' :: text) =
      (readStringRest? fuel rest).map fun (chars, left) =>
        (c :: chars, left) := by
  rw [readStringRest?, found]

/-- One step of reading undoes the writing of one character. -/
theorem readStringRest?_escapedChar (fuel : Nat) (c : Char)
    (rest : List Char) :
    readStringRest? (fuel + 1) (escapedChar c ++ rest) =
      (readStringRest? fuel rest).map fun (chars, left) =>
        (c :: chars, left) := by
  have valid : c.toNat < 0xD800 ∨ 0xDFFF < c.toNat ∧ c.toNat < 0x110000 :=
    c.valid
  rw [escapedChar]
  by_cases quote : c = '"'
  · rw [if_pos quote, quote]
    exact readStringRest?_escape rfl fuel
  rw [if_neg quote]
  by_cases backslash : c = '\\'
  · rw [if_pos backslash, backslash]
    exact readStringRest?_escape rfl fuel
  rw [if_neg backslash]
  by_cases lineFeed : c = '\n'
  · rw [if_pos lineFeed, lineFeed]
    exact readStringRest?_escape rfl fuel
  rw [if_neg lineFeed]
  by_cases carriageReturn : c = '\r'
  · rw [if_pos carriageReturn, carriageReturn]
    exact readStringRest?_escape rfl fuel
  rw [if_neg carriageReturn]
  by_cases tab : c = '\t'
  · rw [if_pos tab, tab]
    exact readStringRest?_escape rfl fuel
  rw [if_neg tab]
  by_cases formFeed : c = '\x0C'
  · rw [if_pos formFeed, formFeed]
    exact readStringRest?_escape rfl fuel
  rw [if_neg formFeed]
  by_cases backspace : c = '\x08'
  · rw [if_pos backspace, backspace]
    exact readStringRest?_escape rfl fuel
  rw [if_neg backspace]
  by_cases printable : 0x20 ≤ c.toNat ∧ c.toNat < 0x7F
  · rw [if_pos printable, List.cons_append, List.nil_append, readStringRest?,
      if_neg (by omega)]
    · exact quote
    · exact backslash
  rw [if_neg printable]
  by_cases basic : c.toNat < 0x10000
  · have single := readEscape?_unit basic (by omega) rest
    rw [Char.ofNat_toNat] at single
    rw [if_pos basic]
    exact readStringRest?_escape single fuel
  · have pair := readEscape?_pair (by omega : c.toNat - 0x10000 < 0x100000) rest
    rw [show 0x10000 + (c.toNat - 0x10000) = c.toNat by omega,
      Char.ofNat_toNat] at pair
    rw [if_neg basic, List.append_assoc]
    exact readStringRest?_escape pair fuel

private theorem readStringRest?_flatMap (chars rest : List Char) {fuel : Nat}
    (enough : chars.length < fuel) :
    readStringRest? fuel (chars.flatMap escapedChar ++ '"' :: rest) =
      some (chars, rest) := by
  induction chars generalizing fuel with
  | nil =>
      obtain ⟨steps, rfl⟩ := Nat.exists_eq_add_of_lt enough
      rfl
  | cons c more inductionHypothesis =>
      cases fuel with
      | zero => omega
      | succ steps =>
          rw [List.length_cons] at enough
          rw [List.flatMap_cons, List.append_assoc,
            readStringRest?_escapedChar, inductionHypothesis (by omega)]
          rfl

theorem escapedChar_ne_nil (c : Char) : escapedChar c ≠ [] := by
  intro empty
  have closed := readStringRest?_escapedChar 0 c ['"']
  rw [empty] at closed
  cases closed

private theorem length_le_flatMap_escapedChar (chars : List Char) :
    chars.length ≤ (chars.flatMap escapedChar).length := by
  induction chars with
  | nil => exact Nat.le_refl 0
  | cons c more inductionHypothesis =>
      have some := List.length_pos_iff.2 (escapedChar_ne_nil c)
      rw [List.length_cons, List.flatMap_cons, List.length_append]
      omega

/-- A string reads back, with what stands behind it left over. -/
theorem exists_readString (text : String) (rest : List Char) {fuel : Nat}
    (enough : (stringText text).length ≤ fuel + 1) :
    ∃ body, stringText text ++ rest = '"' :: body ∧
      readString fuel body = .ok (text, rest) := by
  have escaped := length_le_flatMap_escapedChar text.toList
  rw [stringText, List.length_append, List.length_cons,
    List.length_singleton] at enough
  refine ⟨text.toList.flatMap escapedChar ++ '"' :: rest, ?_, ?_⟩
  · rw [stringText, List.cons_append, List.cons_append, List.append_assoc,
      List.singleton_append]
  · rw [readString, readStringRest?_flatMap _ _ (by omega)]
    dsimp only
    rw [String.ofList_toList]

/-! ### Integers -/

/-- The text does not go on with a number. -/
def Stops (text : List Char) : Prop :=
  ∀ c ∈ text.head?, isAsciiDigit c = false ∧ c ≠ '.' ∧ c ≠ 'e' ∧ c ≠ 'E'

theorem integerText_natCast (value : Nat) :
    integerText (value : Int) = Nat.toDigits 10 value :=
  String.toList_ofList

theorem integerText_negSucc (value : Nat) :
    integerText (Int.negSucc value) = '-' :: Nat.toDigits 10 (value + 1) := by
  show ("-" ++ String.ofList (Nat.toDigits 10 (value + 1))).toList = _
  rw [String.toList_append, String.toList_ofList (l := Nat.toDigits 10 _)]
  rfl

private theorem isAsciiDigit_digitChar {digit : Nat} (small : digit < 10) :
    isAsciiDigit (Nat.digitChar digit) = true := by
  interval_cases digit <;> decide

/-- Digits are written without a leading zero. -/
theorem exists_toDigits_eq_cons (value : Nat) :
    ∃ first others, Nat.toDigits 10 value = first :: others ∧
      isAsciiDigit first = true ∧ (∀ c ∈ others, isAsciiDigit c = true) ∧
      (first = '0' → value = 0) := by
  induction value using Nat.strongRecOn with
  | ind value inductionHypothesis =>
      rw [Nat.toDigits_eq_if (by decide)]
      split
      · rename_i small
        refine ⟨_, [], rfl, isAsciiDigit_digitChar small,
          List.forall_mem_nil _, ?_⟩
        intro isZero
        interval_cases value
        · rfl
        all_goals cases isZero
      · rename_i large
        obtain ⟨first, others, digits, isFirst, areOthers, noZero⟩ :=
          inductionHypothesis (value / 10) (by omega)
        have isLast : isAsciiDigit (Nat.digitChar (value % 10)) = true :=
          isAsciiDigit_digitChar (Nat.mod_lt _ (by decide))
        refine ⟨first, others ++ [Nat.digitChar (value % 10)], ?_, isFirst, ?_,
          ?_⟩
        · rw [digits, List.cons_append]
        · exact List.forall_mem_append.2
            ⟨areOthers, List.forall_mem_singleton.2 isLast⟩
        · intro isZero
          have vanishes := noZero isZero
          omega

theorem digitsValue_toDigits (value : Nat) :
    digitsValue (Nat.toDigits 10 value) = value := by
  have single : ∀ digit < 10,
      (Nat.digitChar digit).toNat - '0'.toNat = digit := by decide
  induction value using Nat.strongRecOn with
  | ind value inductionHypothesis =>
      rw [Nat.toDigits_eq_if (by decide)]
      split
      · rename_i small
        rw [digitsValue, List.foldl_cons, List.foldl_nil, single value small,
          Nat.zero_mul, Nat.zero_add]
      · have before := inductionHypothesis (value / 10) (by omega)
        rw [digitsValue] at before
        rw [digitsValue, List.foldl_append, before, List.foldl_cons,
          List.foldl_nil, single _ (Nat.mod_lt _ (by decide))]
        omega

section

variable {rest : List Char} (stops : Stops rest)
include stops

theorem Stops.digits {digits : List Char}
    (areDigits : ∀ c ∈ digits, isAsciiDigit c = true) :
    (digits ++ rest).takeWhile isAsciiDigit = digits ∧
      (digits ++ rest).dropWhile isAsciiDigit = rest :=
  Text.span_append areDigits fun c isNext => (stops c isNext).1

private theorem Stops.readWhole?_toDigits (value : Nat) :
    readWhole? (Nat.toDigits 10 value ++ rest) =
      some (Nat.toDigits 10 value, rest) := by
  obtain ⟨first, others, digits, isFirst, areOthers, noZero⟩ :=
    exists_toDigits_eq_cons value
  by_cases isZero : first = '0'
  · rw [noZero isZero]
    rfl
  · obtain ⟨taken, dropped⟩ := stops.digits areOthers
    rw [digits, List.cons_append, readWhole?, if_pos isFirst, taken, dropped]
    exact isZero

private theorem Stops.readFraction_eq : readFraction rest = (none, rest) := by
  unfold readFraction
  split
  · exact absurd rfl (stops '.' rfl).2.1
  · rfl

private theorem Stops.readPower_eq : readPower rest = (none, rest) := by
  unfold readPower
  split
  · rename_i c more
    obtain ⟨-, -, noSmall, noLarge⟩ := stops c rfl
    rw [if_neg (not_or.2 ⟨noSmall, noLarge⟩)]
  · rfl

private theorem Stops.readNumber_negative {unsigned whole : List Char}
    (found : readWhole? unsigned = some (whole, rest)) :
    readNumber {} ('-' :: unsigned) =
      .ok (int (-(digitsValue whole : Int)), rest) := by
  unfold readNumber
  simp only [found, stops.readFraction_eq, stops.readPower_eq]
  rfl

private theorem Stops.readNumber_unsigned {first : Char}
    {others whole : List Char}
    (isFirst : isAsciiDigit first = true)
    (found : readWhole? (first :: others) = some (whole, rest)) :
    readNumber {} (first :: others) =
      .ok (int (digitsValue whole : Int), rest) := by
  have noSign : first ≠ '-' := by
    rintro rfl
    cases isFirst
  unfold readNumber
  split
  rename_i negative unsigned isUnsigned
  split at isUnsigned
  · rename_i signed
    exact absurd (List.cons.inj signed).1 noSign
  · cases isUnsigned
    simp only [found, stops.readFraction_eq, stops.readPower_eq]
    rfl

/-- An integer reads back, with what stands behind it left over. -/
theorem Stops.readNumber_integerText (value : Int) :
    readNumber {} (integerText value ++ rest) = .ok (int value, rest) := by
  cases value with
  | ofNat size =>
      obtain ⟨first, others, digits, isFirst, -, -⟩ :=
        exists_toDigits_eq_cons size
      have whole := stops.readWhole?_toDigits size
      rw [Int.ofNat_eq_natCast, integerText_natCast]
      rw [digits, List.cons_append] at whole ⊢
      rw [stops.readNumber_unsigned isFirst whole, ← digits,
        digitsValue_toDigits]
  | negSucc size =>
      rw [integerText_negSucc, List.cons_append,
        stops.readNumber_negative (stops.readWhole?_toDigits (size + 1)),
        digitsValue_toDigits]
      rfl

end

/-- A text that starts like a number is none of the words. -/
theorem readWord?_digit {first : Char} (isFirst : isAsciiDigit first = true)
    (others : List Char) :
    readWord? (first :: others) = none ∧
      readWord? ('-' :: first :: others) = none := by
  have other : ∀ c, isAsciiDigit c = false → c ≠ first := by
    rintro c noDigit rfl
    rw [isFirst] at noDigit
    cases noDigit
  simp [readWord?, words, dropWord?, other 'n' rfl, other 't' rfl, other 'f' rfl,
    other 'N' rfl, other 'I' rfl, other '-' rfl]

end Json

end ContractAtlas
