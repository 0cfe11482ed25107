/-
Documents of JSON text.

A document without binary numbers and without repeated keys reads back from
its text, with all keys in their places.  What reading does with a list or an
object is said step by step; the text of a document goes through these steps
by induction on the document.
-/

import Mathlib.Data.List.Induction
import ContractAtlas.Proofs.Json.Scalars

namespace ContractAtlas.Json

mutual

/-- No binary number is in the document, and no object has a key twice. -/
def isExact : Json → Bool
  | null => true
  | bool _ => true
  | int _ => true
  | real _ => false
  | str _ => true
  | arr items => areExactItems items
  | obj entries =>
      decide (entries.map fun entry => entry.1).Nodup && areExactEntries entries

def areExactItems : List Json → Bool
  | [] => true
  | item :: rest => isExact item && areExactItems rest

def areExactEntries : List (String × Json) → Bool
  | [] => true
  | (_, value) :: rest => isExact value && areExactEntries rest

end

/-! ### Steps of reading -/

section

variable {fuel : Nat} {text afterValue left : List Char} {value : Json}

private theorem readValue_list {first : Char} {others : List Char}
    {items : List Json}
    (starts : skipSpace text = first :: others) (opens : first ≠ ']')
    (found : readItems {} fuel (skipSpace text) = .ok (items, left)) :
    readValue {} (fuel + 1) ('[' :: text) = .ok (arr items, left) := by
  rw [starts] at found
  rw [readValue, Limits.inside?_unlimited]
  dsimp only
  rw [starts]
  split
  · rename_i closes
    exact absurd (List.cons.inj closes).1 opens
  · rw [found]

private theorem readItems_last {rest : List Char}
    (found : readValue {} fuel text = .ok (value, afterValue))
    (closes : skipSpace afterValue = ']' :: rest) :
    readItems {} (fuel + 1) text = .ok ([value], rest) := by
  simp only [readItems, found, closes]

private theorem readItems_more {more : List Char} {items : List Json}
    (found : readValue {} fuel text = .ok (value, afterValue))
    (continues : skipSpace afterValue = ',' :: more)
    (later : readItems {} fuel (skipSpace more) = .ok (items, left)) :
    readItems {} (fuel + 1) text = .ok (value :: items, left) := by
  simp only [readItems, found, continues, later]

private theorem readValue_object {others : List Char}
    {entries : List (String × Json)}
    (starts : skipSpace text = '"' :: others)
    (found : readEntries {} fuel (skipSpace text) = .ok (entries, left)) :
    readValue {} (fuel + 1) ('\x7b' :: text) =
      .ok (obj (settleEntries entries), left) := by
  rw [starts] at found
  rw [readValue, Limits.inside?_unlimited]
  dsimp only
  rw [starts]
  split
  · rename_i closes
    cases closes
  · rw [found]

private theorem readEntries_last {key : String} {beforeValue rest : List Char}
    (named : readString fuel text = .ok (key, ':' :: beforeValue))
    (found : readValue {} fuel (skipSpace beforeValue) =
      .ok (value, afterValue))
    (closes : skipSpace afterValue = '\x7d' :: rest) :
    readEntries {} (fuel + 1) ('"' :: text) = .ok ([(key, value)], rest) := by
  have colon : skipSpace (':' :: beforeValue) = ':' :: beforeValue := rfl
  simp only [readEntries, named, colon, found, closes]

private theorem readEntries_more {key : String} {beforeValue more : List Char}
    {entries : List (String × Json)}
    (named : readString fuel text = .ok (key, ':' :: beforeValue))
    (found : readValue {} fuel (skipSpace beforeValue) =
      .ok (value, afterValue))
    (continues : skipSpace afterValue = ',' :: more)
    (later : readEntries {} fuel (skipSpace more) = .ok (entries, left)) :
    readEntries {} (fuel + 1) ('"' :: text) =
      .ok ((key, value) :: entries, left) := by
  have colon : skipSpace (':' :: beforeValue) = ':' :: beforeValue := rfl
  simp only [readEntries, named, colon, found, continues, later]

end

/-! ### The text of a document -/

private theorem skipSpace_visible {first : Char}
    (visible : isSpace first = false)
    (others : List Char) : skipSpace (first :: others) = first :: others :=
  List.dropWhile_cons_of_neg (Bool.not_eq_true _ ▸ visible)

private theorem skipSpace_lineStart (level : Nat) {first : Char}
    (visible : isSpace first = false) (others : List Char) :
    skipSpace (lineStart level ++ first :: others) = first :: others := by
  have blank : ∀ c ∈ lineStart level, isSpace c = true := by
    intro c member
    rcases List.mem_cons.1 member with rfl | padding
    · rfl
    · rw [(List.mem_replicate.1 padding).2]
      rfl
  rw [skipSpace, List.dropWhile_append_of_pos blank]
  exact skipSpace_visible visible others

private theorem stops_lineStart (level : Nat) (text : List Char) :
    Stops (lineStart level ++ text) := by
  intro c isFirst
  cases isFirst
  decide

private theorem stops_comma (text : List Char) : Stops (',' :: text) := by
  intro c isFirst
  cases isFirst
  decide

private theorem visible_digit {c : Char} (isDigit : isAsciiDigit c = true) :
    isSpace c = false ∧ c ≠ ']' := by
  constructor
  · rw [← Bool.not_eq_true]
    intro blank
    simp only [isSpace, Bool.or_eq_true, beq_iff_eq] at blank
    rcases blank with ((rfl | rfl) | rfl) | rfl
    all_goals cases isDigit
  · rintro rfl
    cases isDigit

/-- An integer starts with a digit, or with a sign and a digit. -/
theorem integerText_cases (value : Int) :
    ∃ first others, isAsciiDigit first = true ∧
      (integerText value = first :: others ∨
        integerText value = '-' :: first :: others) := by
  cases value with
  | ofNat size =>
      obtain ⟨first, others, digits, isFirst, -, -⟩ :=
        exists_toDigits_eq_cons size
      exact ⟨first, others, isFirst,
        Or.inl ((integerText_natCast size).trans digits)⟩
  | negSucc size =>
      obtain ⟨first, others, digits, isFirst, -, -⟩ :=
        exists_toDigits_eq_cons (size + 1)
      refine ⟨first, others, isFirst, Or.inr ?_⟩
      rw [integerText_negSucc, digits]

theorem exists_blockChars_eq_cons (level : Nat) {value : Json}
    (exact : value.isExact = true) :
    ∃ first others, value.blockChars level = first :: others ∧
      isSpace first = false ∧ first ≠ ']' := by
  cases value with
  | null => exact ⟨'n', _, rfl, rfl, by decide⟩
  | bool isTrue =>
      cases isTrue with
      | true => exact ⟨'t', _, rfl, rfl, by decide⟩
      | false => exact ⟨'f', _, rfl, rfl, by decide⟩
  | int number =>
      show ∃ first others, integerText number = first :: others ∧ _
      obtain ⟨first, others, isFirst, digits | digits⟩ :=
        integerText_cases number
      · exact ⟨first, others, digits, visible_digit isFirst⟩
      · exact ⟨'-', _, digits, rfl, by decide⟩
  | real number => cases exact
  | str text => exact ⟨'"', _, rfl, rfl, by decide⟩
  | arr items =>
      cases items with
      | nil => exact ⟨'[', _, rfl, rfl, by decide⟩
      | cons item rest => exact ⟨'[', _, rfl, rfl, by decide⟩
  | obj entries =>
      cases entries with
      | nil => exact ⟨'\x7b', _, rfl, rfl, by decide⟩
      | cons entry rest => exact ⟨'\x7b', _, rfl, rfl, by decide⟩

private theorem skipSpace_blockChars (level : Nat) {value : Json}
    (exact : value.isExact = true) (rest : List Char) :
    skipSpace (value.blockChars level ++ rest) =
      value.blockChars level ++ rest := by
  obtain ⟨first, others, starts, visible, -⟩ :=
    exists_blockChars_eq_cons level exact
  rw [starts]
  exact skipSpace_visible visible _

private theorem skipSpace_lineStart_blockChars (level : Nat) {value : Json}
    (exact : value.isExact = true) (rest : List Char) :
    skipSpace (lineStart level ++ (value.blockChars level ++ rest)) =
      value.blockChars level ++ rest := by
  obtain ⟨first, others, starts, visible, -⟩ :=
    exists_blockChars_eq_cons level exact
  rw [starts]
  exact skipSpace_lineStart level visible _

private theorem readValue_number {fuel : Nat} {first : Char}
    {others : List Char}
    (plain : first ∉ ['"', '[', '\x7b'])
    (noWord : readWord? (first :: others) = none) :
    readValue {} (fuel + 1) (first :: others) =
      readNumber {} (first :: others) := by
  unfold readValue
  split
  case h_4 => rw [noWord]
  all_goals
    rename_i starts
    rw [(List.cons.inj starts).1] at plain
    exact absurd plain (by decide)

private theorem readValue_integerText (value : Int) (fuel : Nat)
    {rest : List Char}
    (stops : Stops rest) :
    readValue {} (fuel + 1) (integerText value ++ rest) =
      .ok (int value, rest) := by
  rw [← stops.readNumber_integerText value]
  obtain ⟨first, others, isFirst, digits | digits⟩ := integerText_cases value
  · rw [digits]
    apply readValue_number
    · rintro opens
      simp only [List.mem_cons, List.not_mem_nil, or_false] at opens
      rcases opens with rfl | rfl | rfl
      all_goals cases isFirst
    · exact (readWord?_digit isFirst (others ++ rest)).1
  · rw [digits]
    exact readValue_number (by decide)
      (readWord?_digit isFirst (others ++ rest)).2

private theorem skipSpace_blockItems (level : Nat) (item : Json)
    (items : List Json)
    (exact : areExactItems (item :: items) = true) (rest : List Char) :
    ∃ first others, skipSpace (blockItems level (item :: items) ++ rest) =
      first :: others ∧ first ≠ ']' := by
  obtain ⟨first, others, starts, visible, opens⟩ :=
    exists_blockChars_eq_cons level (Bool.and_eq_true_iff.1 exact).1
  cases items with
  | nil =>
      rw [blockItems, starts, List.append_assoc, List.cons_append,
        skipSpace_lineStart level visible]
      exact ⟨first, _, rfl, opens⟩
  | cons next more =>
      rw [blockItems, starts, List.append_assoc, List.append_assoc,
        List.cons_append, skipSpace_lineStart level visible]
      · exact ⟨first, _, rfl, opens⟩
      · intro impossible
        cases impossible

private theorem skipSpace_blockEntries (level : Nat) (key : String)
    (value : Json)
    (entries : List (String × Json)) (rest : List Char) :
    ∃ others, skipSpace (blockEntries level ((key, value) :: entries) ++ rest) =
      '"' :: others := by
  cases entries with
  | nil =>
      rw [blockEntries, stringText]
      simp only [List.append_assoc, List.cons_append]
      rw [skipSpace_lineStart level rfl]
      exact ⟨_, rfl⟩
  | cons next more =>
      rw [blockEntries, stringText]
      · simp only [List.append_assoc, List.cons_append]
        rw [skipSpace_lineStart level rfl]
        exact ⟨_, rfl⟩
      · intro impossible
        cases impossible

private theorem putEntry_fresh {key : String} {entries : List (String × Json)}
    (fresh : key ∉ entries.map fun entry => entry.1) (value : Json) :
    putEntry key value entries = entries ++ [(key, value)] := by
  induction entries with
  | nil => rfl
  | cons entry rest inductionHypothesis =>
      obtain ⟨other, old⟩ := entry
      rw [List.map_cons, List.mem_cons, not_or] at fresh
      rw [putEntry, if_neg (Ne.symm fresh.1), inductionHypothesis fresh.2,
        List.cons_append]

private theorem settleEntries_of_nodup {entries : List (String × Json)}
    (distinct : (entries.map fun entry => entry.1).Nodup) :
    settleEntries entries = entries := by
  induction entries using List.reverseRecOn with
  | nil => rfl
  | append_singleton entries entry inductionHypothesis =>
      rw [List.map_append, List.nodup_append] at distinct
      obtain ⟨before, -, apart⟩ := distinct
      have fresh : entry.1 ∉ entries.map fun entry => entry.1 := fun known =>
        apart entry.1 known entry.1 (List.mem_singleton.2 rfl) rfl
      have settled := inductionHypothesis before
      rw [settleEntries] at settled
      rw [settleEntries, List.foldl_append, settled]
      exact putEntry_fresh fresh entry.2

/-! ### Reading back -/

private theorem isExact_of_mem_items {item : Json} {rest : List Json}
    (exact : areExactItems (item :: rest) = true) :
    item.isExact = true ∧ areExactItems rest = true :=
  Bool.and_eq_true_iff.1 exact

private theorem isExact_of_mem_entries {key : String} {value : Json}
    {rest : List (String × Json)}
    (exact : areExactEntries ((key, value) :: rest) = true) :
    value.isExact = true ∧ areExactEntries rest = true :=
  Bool.and_eq_true_iff.1 exact

mutual

/-- As many steps as the text has characters suffice to read it back. -/
theorem readValue_blockChars : (value : Json) → value.isExact = true →
    ∀ {level fuel : Nat} {rest : List Char},
      (value.blockChars level).length < fuel → Stops rest →
        readValue {} fuel (value.blockChars level ++ rest) = .ok (value, rest)
  | null, _, _, fuel + 1, rest, _, _ => rfl
  | bool true, _, _, fuel + 1, rest, _, _ => rfl
  | bool false, _, _, fuel + 1, rest, _, _ => rfl
  | int number, _, _, fuel + 1, _, _, stops =>
      readValue_integerText number fuel stops
  | str text, _, _, fuel + 1, rest, enough, _ => by
      obtain ⟨body, quoted, read⟩ :=
        exists_readString text rest (Nat.le_of_lt enough)
      show readValue {} (fuel + 1) (stringText text ++ rest) = _
      rw [quoted, readValue, read]
  | arr [], _, _, fuel + 1, rest, _, _ => rfl
  | arr (item :: items), exact, level, fuel + 1, rest, enough, _ => by
      obtain ⟨first, others, starts, opens⟩ :=
        skipSpace_blockItems (level + 1) item items exact
          (lineStart level ++ ']' :: rest)
      rw [blockChars] at enough ⊢
      simp only [List.length_append, List.length_cons] at enough
      simp only [List.cons_append, List.append_assoc, List.nil_append]
      apply readValue_list starts opens
      exact readItems_blockItems (item :: items) exact
        (List.cons_ne_nil item items) (by omega)
  | obj [], _, _, fuel + 1, rest, _, _ => rfl
  | obj ((key, value) :: entries), exact, level, fuel + 1, rest, enough, _ => by
      obtain ⟨distinct, areExact⟩ := Bool.and_eq_true_iff.1 exact
      obtain ⟨others, starts⟩ := skipSpace_blockEntries (level + 1) key value
        entries (lineStart level ++ '\x7d' :: rest)
      rw [blockChars] at enough ⊢
      simp only [List.length_append, List.length_cons] at enough
      simp only [List.cons_append, List.append_assoc, List.nil_append]
      have remains :
          (blockEntries (level + 1) ((key, value) :: entries)).length < fuel := by
        omega
      have found := readValue_object starts
        (readEntries_blockEntries ((key, value) :: entries) areExact
          (List.cons_ne_nil _ entries) remains)
      rw [settleEntries_of_nodup (of_decide_eq_true distinct)] at found
      exact found

/-- The items of a list read back up to the bracket that closes it. -/
theorem readItems_blockItems : (items : List Json) →
    areExactItems items = true → items ≠ [] →
    ∀ {level outer fuel : Nat} {rest : List Char},
      (blockItems level items).length < fuel →
        readItems {} fuel
            (skipSpace (blockItems level items ++
              (lineStart outer ++ ']' :: rest))) =
          .ok (items, rest)
  | [item], exact, _, level, outer, fuel + 1, rest, enough => by
      obtain ⟨isExact, -⟩ := isExact_of_mem_items exact
      rw [blockItems] at enough ⊢
      rw [List.length_append, lineStart, List.length_cons] at enough
      rw [List.append_assoc, skipSpace_lineStart_blockChars level isExact]
      apply readItems_last
      · exact readValue_blockChars item isExact (by omega)
          (stops_lineStart outer _)
      · exact skipSpace_lineStart outer rfl rest
  | item :: next :: others, exact, _, level, outer, fuel + 1, rest, enough => by
      obtain ⟨isExact, areExact⟩ := isExact_of_mem_items exact
      rw [blockItems] at enough ⊢
      · rw [List.length_append, List.length_append, lineStart,
          List.length_cons, List.length_cons] at enough
        rw [List.append_assoc, List.append_assoc,
          skipSpace_lineStart_blockChars level isExact, List.cons_append]
        apply readItems_more
        · exact readValue_blockChars item isExact (by omega) (stops_comma _)
        · exact skipSpace_visible rfl _
        · exact readItems_blockItems (next :: others) areExact
            (List.cons_ne_nil next others) (by omega)
      all_goals
        intro impossible
        cases impossible

/-- The entries of an object read back up to the brace that closes it. -/
theorem readEntries_blockEntries : (entries : List (String × Json)) →
    areExactEntries entries = true → entries ≠ [] →
    ∀ {level outer fuel : Nat} {rest : List Char},
      (blockEntries level entries).length < fuel →
        readEntries {} fuel
            (skipSpace (blockEntries level entries ++
              (lineStart outer ++ '\x7d' :: rest))) =
          .ok (entries, rest)
  | [(key, value)], exact, _, level, outer, fuel + 1, rest, enough => by
      obtain ⟨isExact, -⟩ := isExact_of_mem_entries exact
      rw [blockEntries] at enough ⊢
      simp only [List.length_append, lineStart, List.length_cons] at enough
      obtain ⟨body, quoted, named⟩ := exists_readString key
        (':' :: ' ' :: (blockChars level value ++
          (lineStart outer ++ '\x7d' :: rest))) (by omega : _ ≤ fuel + 1)
      rw [List.append_assoc, List.append_assoc, List.cons_append,
        List.cons_append, quoted, skipSpace_lineStart level rfl]
      apply readEntries_last named
      · show readValue {} fuel (skipSpace (blockChars level value ++ _)) = _
        rw [skipSpace_blockChars level isExact]
        exact readValue_blockChars value isExact (by omega)
          (stops_lineStart outer _)
      · exact skipSpace_lineStart outer rfl rest
  | (key, value) :: next :: others, exact, _, level, outer, fuel + 1, rest,
      enough => by
      obtain ⟨isExact, areExact⟩ := isExact_of_mem_entries exact
      rw [blockEntries] at enough ⊢
      · simp only [List.length_append, lineStart, List.length_cons] at enough
        obtain ⟨body, quoted, named⟩ := exists_readString key
          (':' :: ' ' :: (blockChars level value ++
            (',' :: (blockEntries level (next :: others) ++
              (lineStart outer ++ '\x7d' :: rest))))) (by omega : _ ≤ fuel + 1)
        simp only [List.append_assoc, List.cons_append]
        rw [quoted, skipSpace_lineStart level rfl]
        apply readEntries_more named
        · show readValue {} fuel (skipSpace (blockChars level value ++ _)) = _
          rw [skipSpace_blockChars level isExact]
          exact readValue_blockChars value isExact (by omega) (stops_comma _)
        · exact skipSpace_visible rfl _
        · exact readEntries_blockEntries (next :: others) areExact
            (List.cons_ne_nil next others) (by omega)
      all_goals
        intro impossible
        cases impossible

end

/-- A document without binary numbers and repeated keys reads back from its
text, with all keys in their places. -/
theorem read?_block {value : Json} (exact : value.isExact = true) :
    read? value.block = some value := by
  have noRest : Stops [] := by
    intro c isFirst
    cases isFirst
  have found : readValue {} ((value.blockChars 0).length + 1)
      (value.blockChars 0 ++ []) = .ok (value, []) :=
    readValue_blockChars value exact (Nat.lt_succ_self _) noRest
  have starts := skipSpace_blockChars 0 exact []
  rw [List.append_nil] at found starts
  rw [read?, readWithin, block, String.toList_ofList, starts, found]
  rfl

end ContractAtlas.Json
