/-
Normal type texts.

Stripping only ever takes something off the end of a text, and a pass that does
not make the text shorter leaves it as it is.  So the text at which stripping
ends is stable, and normalizing it once more changes nothing.
-/

import ContractAtlas.Proofs.Solidity.ArrayWidth

namespace ContractAtlas

namespace Text

/-- The text does not start with a blank. -/
def StartsFilled (text : List Char) : Prop :=
  ∀ c ∈ text.head?, isBlank c = false

private theorem startsFilled_trimStart (text : List Char) :
    StartsFilled (trimStart text) := by
  intro c first
  have filled := List.head?_dropWhile_not isBlank text
  rw [trimStart] at first
  rw [Option.mem_def.1 first] at filled
  simpa using filled

private theorem StartsFilled.of_front {front text : List Char}
    (filled : StartsFilled text) (isFront : front <+: text) :
    StartsFilled front := by
  cases front with
  | nil =>
      intro c first
      cases first
  | cons c rest =>
      obtain ⟨back, rfl⟩ := isFront
      exact filled

private theorem trimStart_eq_self {text : List Char}
    (filled : StartsFilled text) :
    trimStart text = text := by
  cases text with
  | nil => rfl
  | cons c rest =>
      have notBlank := filled c rfl
      rw [trimStart, List.dropWhile_cons_of_neg (by simp [notBlank])]

theorem trimEnd_eq_self {text : List Char} (filled : EndsFilled text) :
    trimEnd text = text := by
  have backwards : trimStart text.reverse = text.reverse := by
    apply trimStart_eq_self
    intro c first
    rw [List.head?_reverse] at first
    exact filled c first
  rw [trimStart] at backwards
  rw [trimEnd, backwards, List.reverse_reverse]

theorem EndsFilled.of_suffix {ending text : List Char}
    (filled : EndsFilled ending) (closing : ending <:+ text)
    (given : ending ≠ []) : EndsFilled text := by
  obtain ⟨front, rfl⟩ := closing
  intro c last
  rw [List.getLast?_append, List.getLast?_eq_some_getLast given,
    Option.some_or, ← List.getLast?_eq_some_getLast given] at last
  exact filled c last

theorem trimEnd_prefix_self (text : List Char) : trimEnd text <+: text := by
  rw [← List.reverse_suffix, trimEnd, List.reverse_reverse]
  exact List.dropWhile_suffix isBlank

theorem trim_eq_self {text : List Char} (started : StartsFilled text)
    (ended : EndsFilled text) : trim text = text := by
  rw [trim, trimStart_eq_self started, trimEnd_eq_self ended]

private theorem startsFilled_trim (text : List Char) : StartsFilled
    (trim text) :=
  (startsFilled_trimStart text).of_front (trimEnd_prefix_self _)

private theorem dropEnding?_prefix_text {ending text rest : List Char}
    (found : dropEnding? ending text = some rest) : rest <+: text := by
  unfold dropEnding? at found
  split at found
  · cases found
  · split at found
    · cases found
      exact List.take_prefix _ _
    · cases found

end Text

namespace TypeName

open Text

/-! ### Stripping ends at a stable text -/

theorem stripSuffix_prefix_self (text suffix : List Char) :
    stripSuffix text suffix <+: text := by
  unfold stripSuffix
  split
  · next rest found =>
      exact (trimEnd_prefix_self rest).trans (dropEnding?_prefix_text found)
  · exact List.prefix_rfl

private theorem stripPass_prefix_self (text : List Char) :
    stripPass text <+: text := by
  unfold stripPass
  generalize locationSuffixes = suffixes
  induction suffixes generalizing text with
  | nil => exact List.prefix_rfl
  | cons suffix rest inductionHypothesis =>
      exact (inductionHypothesis (stripSuffix text suffix)).trans
        (stripSuffix_prefix_self text suffix)

private theorem stripLocations_prefix_self (text : List Char) :
    stripLocations text <+: text := by
  fun_induction stripLocations text with
  | case1 text next shorter inductionHypothesis =>
      exact inductionHypothesis.trans (stripPass_prefix_self text)
  | case2 text next stable => exact List.prefix_rfl

theorem stripPass_stripLocations (text : List Char) :
    stripPass (stripLocations text) = stripLocations text := by
  fun_induction stripLocations text with
  | case1 text next shorter inductionHypothesis => exact inductionHypothesis
  | case2 text next stable =>
      exact (stripPass_prefix_self text).eq_of_length_le (Nat.le_of_not_lt stable)

theorem startsFilled_normalize (text : List Char) :
    StartsFilled (normalize text) :=
  (startsFilled_trim text).of_front (stripLocations_prefix_self _)

theorem normalize_normalize (text : List Char) :
    normalize (normalize text) = normalize text :=
  normalize_of_stable
    (trim_eq_self (startsFilled_normalize text) (endsFilled_normalize text))
    (stripPass_stripLocations _)

/-! ### Texts with an ending of their own -/

/-- No data location ends as the text does. -/
def EndsApart (ending : List Char) : Prop :=
  ∀ suffix ∈ locationSuffixes, ¬ suffix <:+ ending ∧ ¬ ending <:+ suffix

instance (ending : List Char) : Decidable (EndsApart ending) :=
  inferInstanceAs (Decidable (∀ suffix ∈ locationSuffixes, _ ∧ _))

theorem EndsApart.ne_nil {ending : List Char} (apart : EndsApart ending) :
    ending ≠ [] := by
  intro empty
  have shared := (apart " ref".toList (by decide)).2
  rw [empty] at shared
  exact shared List.nil_suffix

private theorem stripPass_of_endsApart {text ending : List Char}
    (closing : ending <:+ text) (apart : EndsApart ending) :
    stripPass text = text := by
  unfold EndsApart at apart
  unfold stripPass
  generalize locationSuffixes = suffixes at apart
  induction suffixes with
  | nil => rfl
  | cons suffix rest inductionHypothesis =>
      obtain ⟨own, later⟩ := List.forall_mem_cons.1 apart
      have kept : dropEnding? suffix text = none := by
        rw [← Option.not_isSome_iff_eq_none, dropEnding?_isSome_iff]
        intro found
        rcases List.suffix_or_suffix_of_suffix found closing with inside | around
        · exact own.1 inside
        · exact own.2 around
      rw [List.foldl_cons, stripSuffix, kept]
      exact inductionHypothesis later

/-- A text is normal if it starts with no blank and has an ending that no data
location shares. -/
theorem normalize_of_endsApart {first : Char} {rest ending : List Char}
    (started : isBlank first = false) (closing : ending <:+ first :: rest)
    (ended : EndsFilled ending) (apart : EndsApart ending) :
    normalize (first :: rest) = first :: rest := by
  apply normalize_of_stable
  · apply trim_eq_self
    · intro c same
      cases same
      exact started
    · exact ended.of_suffix closing apart.ne_nil
  · exact stripPass_of_endsApart closing apart

end TypeName

end ContractAtlas
