/-
Documents in another key order.

Two documents are the same but for the order of their keys if their lists
agree item by item and their objects hold the same values under the same keys.
What is found under a key does not depend on the order, and neither does
anything that looks only at scalars and at the number of parts.
-/

import Mathlib.Data.List.Nodup
import ContractAtlas.Json.Basic
import ContractAtlas.Proofs.Paired

namespace ContractAtlas

theorem lookup_eq_of_perm {α : Type} {left right : List (String × α)}
    (same : left.Perm right) (distinct : (left.map Prod.fst).Nodup)
    (key : String) : left.lookup key = right.lookup key := by
  induction same with
  | nil => rfl
  | cons entry _ inductionHypothesis =>
      rw [List.map_cons, List.nodup_cons] at distinct
      rw [List.lookup_cons, List.lookup_cons, inductionHypothesis distinct.2]
  | swap first second rest =>
      have different : second.1 ≠ first.1 := by
        intro sameKey
        rw [List.map_cons, List.map_cons, sameKey] at distinct
        exact (List.nodup_cons.1 distinct).1 List.mem_cons_self
      rw [List.lookup_cons, List.lookup_cons, List.lookup_cons,
        List.lookup_cons]
      by_cases isFirst : key = first.1
      · have noSecond : (key == second.1) = false :=
          beq_eq_false_iff_ne.2 fun isSecond =>
            different (isSecond.symm.trans isFirst)
        rw [noSecond]
      · rw [beq_eq_false_iff_ne.2 isFirst]
  | trans firstSame _ firstHypothesis secondHypothesis =>
      have stillDistinct := (firstSame.map Prod.fst).nodup_iff.1 distinct
      exact (firstHypothesis distinct).trans (secondHypothesis stillDistinct)

/-- Entries with different keys stand in the order of their keys. -/
theorem eq_of_perm_of_keys_eq {α : Type} {left right : List (String × α)}
    (same : left.Perm right) (distinct : (left.map Prod.fst).Nodup)
    (inOrder : left.map Prod.fst = right.map Prod.fst) : left = right := by
  induction left generalizing right with
  | nil => exact same.nil_eq
  | cons entry rest inductionHypothesis =>
      cases right with
      | nil => cases inOrder
      | cons other others =>
          rw [List.map_cons, List.map_cons, List.cons.injEq] at inOrder
          rw [List.map_cons, List.nodup_cons] at distinct
          have isFirst : entry = other := by
            rcases List.mem_cons.1 (same.mem_iff.1 List.mem_cons_self) with
              isOther | later
            · exact isOther
            · rw [inOrder.2] at distinct
              exact absurd (List.mem_map_of_mem later) distinct.1
          rw [isFirst] at same ⊢
          rw [inductionHypothesis same.cons_inv distinct.2 inOrder.2]

theorem eq_of_perm_of_length_le_one {α : Type} {left right : List α}
    (same : left.Perm right) (short : left.length ≤ 1) : left = right := by
  match left, short with
  | [], _ => exact same.nil_eq
  | [value], _ => exact (List.singleton_perm.1 same)

theorem isEmpty_eq_of_length_eq {α : Type} {left right : List α}
    (sameLength : left.length = right.length) :
    left.isEmpty = right.isEmpty := by
  rw [Bool.eq_iff_iff, List.isEmpty_iff_length_eq_zero,
    List.isEmpty_iff_length_eq_zero, sameLength]

theorem length_filter_key_le_one {α : Type} {entries : List (String × α)}
    (distinct : (entries.map Prod.fst).Nodup) (key : String) :
    (entries.filter fun entry => entry.1 == key).length ≤ 1 := by
  have counted : (entries.filter fun entry => entry.1 == key).length =
      (entries.map Prod.fst).count key := by
    rw [List.count_eq_countP, List.countP_map, List.countP_eq_length_filter]
    rfl
  rw [counted]
  exact List.nodup_iff_count_le_one.1 distinct key

namespace Json

/-- The documents are the same but for the order of keys, and no object has a
key twice. -/
inductive Reorders : Json → Json → Prop
  | scalar {value : Json} (filed : value.key?.isSome = true) :
      Reorders value value
  | arr {items others : List Json}
      (each : List.Forall₂ Reorders items others) :
      Reorders (arr items) (arr others)
  | obj {entries moved others : List (String × Json)}
      (distinct : (entries.map Prod.fst).Nodup)
      (sameKeys : entries.map Prod.fst = moved.map Prod.fst)
      (each : List.Forall₂ Reorders (entries.map Prod.snd)
        (moved.map Prod.snd))
      (same : moved.Perm others) :
      Reorders (obj entries) (obj others)

/-- The entries have the same key, and their values are the same but for the
order of keys. -/
def EntryReorders (entry other : String × Json) : Prop :=
  entry.1 = other.1 ∧ entry.2.Reorders other.2

theorem forall₂_entryReorders_iff {entries others : List (String × Json)} :
    List.Forall₂ EntryReorders entries others ↔
      entries.map Prod.fst = others.map Prod.fst ∧
        List.Forall₂ Reorders (entries.map Prod.snd)
          (others.map Prod.snd) := by
  rw [List.forall₂_map_left_iff, List.forall₂_map_right_iff,
    ← List.forall₂_eq_eq_eq, List.forall₂_map_left_iff,
    List.forall₂_map_right_iff]
  constructor
  · intro each
    exact ⟨each.imp fun _ _ both => both.1, each.imp fun _ _ both => both.2⟩
  · intro both
    exact List.Forall₂.mp (fun _ _ => And.intro) both.1 both.2

theorem reorders_null : Reorders null null :=
  .scalar rfl

theorem reorders_str (text : String) : Reorders (str text) (str text) :=
  .scalar rfl

/-- An object in another order has its entries in a third one, key by key. -/
theorem Reorders.moved {entries : List (String × Json)} {other : Json}
    (reorders : (Json.obj entries).Reorders other) :
    ∃ moved others, other = .obj others ∧
      (entries.map Prod.fst).Nodup ∧
      List.Forall₂ EntryReorders entries moved ∧ moved.Perm others := by
  cases reorders with
  | scalar filed => cases filed
  | obj distinct sameKeys each same =>
      exact ⟨_, _, rfl, distinct,
        forall₂_entryReorders_iff.2 ⟨sameKeys, each⟩, same⟩

private theorem lookup_of_forall₂ {entries others : List (String × Json)}
    (each : List.Forall₂ EntryReorders entries others) (key : String) :
    Option.Rel Reorders (entries.lookup key) (others.lookup key) := by
  induction each with
  | nil => exact .none
  | cons sameEntry _ inductionHypothesis =>
      rw [List.lookup_cons, List.lookup_cons, sameEntry.1]
      split
      · exact .some sameEntry.2
      · exact inductionHypothesis

section

variable {value other : Json} {entries others : List (String × Json)}

/-- The same is found under each key. -/
theorem Reorders.lookup (reorders : (Json.obj entries).Reorders (.obj others))
    (key : String) :
    Option.Rel Reorders (entries.lookup key) (others.lookup key) := by
  obtain ⟨moved, _, sameOthers, distinct, each, same⟩ := reorders.moved
  cases sameOthers
  rw [(forall₂_entryReorders_iff.1 each).1] at distinct
  rw [← lookup_eq_of_perm same distinct]
  exact lookup_of_forall₂ each key

theorem Reorders.getD {found foundOther : Option Json}
    (reorders : Option.Rel Reorders found foundOther) {fallback : Json}
    (same : fallback.Reorders fallback) :
    (found.getD fallback).Reorders (foundOther.getD fallback) := by
  cases reorders with
  | some sameValue => exact sameValue
  | none => exact same

/-- What looks at scalars and at the number of parts only does not see the
order. -/
theorem Reorders.congr {α : Type} (view : Json → α)
    (lists : ∀ items others : List Json, items.length = others.length →
      view (.arr items) = view (.arr others))
    (objects : ∀ entries others : List (String × Json),
      entries.length = others.length → view (.obj entries) = view (.obj others))
    (reorders : value.Reorders other) : view value = view other := by
  cases reorders with
  | scalar _ => rfl
  | arr each => exact lists _ _ each.length_eq
  | obj _ sameKeys _ same =>
      apply objects
      have sameLength := congrArg List.length sameKeys
      rw [List.length_map, List.length_map] at sameLength
      rw [sameLength, same.length_eq]

theorem Reorders.key? (reorders : value.Reorders other) :
    value.key? = other.key? :=
  reorders.congr Json.key? (fun _ _ _ => rfl) fun _ _ _ => rfl

theorem Reorders.toInt? (reorders : value.Reorders other) :
    value.toInt? = other.toInt? :=
  reorders.congr Json.toInt? (fun _ _ _ => rfl) fun _ _ _ => rfl

theorem Reorders.isOneOf (reorders : value.Reorders other)
    (texts : List String) : value.isOneOf texts = other.isOneOf texts :=
  reorders.congr (Json.isOneOf texts) (fun _ _ _ => rfl) fun _ _ _ => rfl

theorem Reorders.isGiven (reorders : value.Reorders other) :
    value.isGiven = other.isGiven := by
  refine reorders.congr Json.isGiven ?_ ?_
  · intro items others sameLength
    exact congrArg not (isEmpty_eq_of_length_eq sameLength)
  · intro entries others sameLength
    exact congrArg not (isEmpty_eq_of_length_eq sameLength)

theorem Reorders.eq_of_filed (reorders : value.Reorders other)
    (filed : value.key?.isSome = true) : value = other := by
  cases reorders with
  | scalar _ => rfl
  | arr | obj => cases filed

theorem Reorders.givenOr {fallback otherFallback : Json}
    (reorders : value.Reorders other)
    (otherwise : fallback.Reorders otherFallback) :
    (value.givenOr fallback).Reorders (other.givenOr otherFallback) := by
  rw [Json.givenOr, Json.givenOr, reorders.isGiven]
  split
  · exact reorders
  · exact otherwise

end

mutual

/-- The document is an object or a list with an object in it, at any depth. -/
def holdsObject : Json → Bool
  | obj _ => true
  | arr items => anyHoldsObject items
  | _ => false

def anyHoldsObject : List Json → Bool
  | [] => false
  | item :: rest => holdsObject item || anyHoldsObject rest

end

mutual

theorem Reorders.eq_of_not_holdsObject : (value other : Json) →
    value.Reorders other → value.holdsObject = false → value = other
  | .arr items, other, reorders, noObject => by
      rw [holdsObject] at noObject
      cases reorders with
      | scalar filed => cases filed
      | arr each => rw [eq_of_not_anyHoldsObject items _ each noObject]
  | .obj _, other, reorders, noObject => by
      cases noObject
  | .null, other, reorders, _ | .bool _, other, reorders, _
  | .int _, other, reorders, _ | .real _, other, reorders, _
  | .str _, other, reorders, _ => by
      cases reorders
      rfl

private theorem eq_of_not_anyHoldsObject : (items others : List Json) →
    List.Forall₂ Reorders items others → anyHoldsObject items = false →
      items = others
  | [], others, each, _ => by
      cases each
      rfl
  | item :: rest, others, each, noObject => by
      rw [anyHoldsObject, Bool.or_eq_false_iff] at noObject
      cases each with
      | cons sameItem later =>
      rw [Reorders.eq_of_not_holdsObject item _ sameItem noObject.1,
        eq_of_not_anyHoldsObject rest _ later noObject.2]

end

end Json

end ContractAtlas
