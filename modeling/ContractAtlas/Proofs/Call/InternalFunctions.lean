/-
Internal functions and the roots that reach them.

The internal functions below the roots are noted in a table one after the
other, each with the name of its root.  Names are filed under their keys, which
lists and objects do not have: the first such name ends the collection.
Otherwise the table has each function once, with each root that reaches it
once, and nothing else.
-/

import Mathlib.Data.List.Nodup
import ContractAtlas.Proofs.Call.Outline

namespace ContractAtlas.CallNode

/-! ### Tables -/

private theorem key_addCaller (reached : Reached) (key : Json.Key)
    (caller : Json) :
    (reached.addCaller key caller).key = reached.key ∧
      (reached.addCaller key caller).name = reached.name := by
  rw [Reached.addCaller]
  split
  · exact ⟨rfl, rfl⟩
  · exact ⟨rfl, rfl⟩

/-- A caller that is added is new, or it is there already. -/
theorem addCaller_cases (reached : Reached) (key : Json.Key) (caller : Json) :
    (key ∈ reached.callers.map Prod.fst ∧
        (reached.addCaller key caller).callers = reached.callers) ∨
      (key ∉ reached.callers.map Prod.fst ∧
        (reached.addCaller key caller).callers =
          reached.callers ++ [(key, caller)]) := by
  have known : (reached.callers.any fun other => other.1 = key) = true ↔
      key ∈ reached.callers.map Prod.fst := by
    rw [List.any_eq_true, List.mem_map]
    simp only [decide_eq_true_eq]
  rw [Reached.addCaller]
  split
  · next there => exact Or.inl ⟨known.1 there, rfl⟩
  · next absent => exact Or.inr ⟨mt known.2 absent, rfl⟩

private theorem mem_callers_addCaller {reached : Reached} {key other : Json.Key}
    {caller : Json} :
    other ∈ (reached.addCaller key caller).callers.map Prod.fst ↔
      other = key ∨ other ∈ reached.callers.map Prod.fst := by
  rcases addCaller_cases reached key caller with ⟨known, same⟩ | ⟨-, added⟩
  · rw [same]
    constructor
    · exact Or.inr
    · intro member
      rcases member with isKey | member
      · exact isKey ▸ known
      · exact member
  · rw [added, List.map_append, List.mem_append, List.map_singleton,
      List.mem_singleton, or_comm]

section Note

variable {key callerKey : Json.Key} {name caller : Json} {table : List Reached}

/-- What holds of the entries of a table holds of them after a note, if it
holds of a new entry and a caller more keeps it. -/
theorem forall_noteReached {holds : Reached → Prop}
    (new : holds { key := key, name := name, callers := [(callerKey, caller)] })
    (added : ∀ entry, holds entry → holds (entry.addCaller callerKey caller))
    (before : ∀ entry ∈ table, holds entry) :
    ∀ entry ∈ noteReached key name callerKey caller table, holds entry := by
  induction table with
  | nil => exact List.forall_mem_singleton.2 new
  | cons first rest inductionHypothesis =>
      obtain ⟨ofFirst, ofRest⟩ := List.forall_mem_cons.1 before
      rw [noteReached]
      split
      · exact List.forall_mem_cons.2 ⟨added first ofFirst, ofRest⟩
      · exact List.forall_mem_cons.2 ⟨ofFirst, inductionHypothesis ofRest⟩

private theorem mem_keys_noteReached {other : Json.Key} :
    other ∈ (noteReached key name callerKey caller table).map Reached.key ↔
      other = key ∨ other ∈ table.map Reached.key := by
  induction table with
  | nil =>
      rw [noteReached, List.map_singleton, List.mem_singleton, List.map_nil,
        or_iff_left List.not_mem_nil]
  | cons first rest inductionHypothesis =>
      rw [noteReached]
      split
      · next same =>
          rw [List.map_cons, (key_addCaller first callerKey caller).1,
            List.map_cons, List.mem_cons, same, or_self_left]
      · rw [List.map_cons, List.mem_cons, inductionHypothesis, List.map_cons,
          List.mem_cons, or_left_comm]

private theorem nodup_keys_noteReached
    (distinct : (table.map Reached.key).Nodup) :
    ((noteReached key name callerKey caller table).map Reached.key).Nodup := by
  induction table with
  | nil => exact List.nodup_singleton key
  | cons first rest inductionHypothesis =>
      rw [List.map_cons, List.nodup_cons] at distinct
      obtain ⟨fresh, distinctRest⟩ := distinct
      rw [noteReached]
      split
      · rw [List.map_cons, (key_addCaller first callerKey caller).1,
          List.nodup_cons]
        exact ⟨fresh, distinctRest⟩
      · next different =>
          rw [List.map_cons, List.nodup_cons, mem_keys_noteReached, not_or]
          exact ⟨⟨different, fresh⟩, inductionHypothesis distinctRest⟩

end Note

/-- The table has a caller under the key of a function. -/
def HasCaller (table : List Reached) (key callerKey : Json.Key) : Prop :=
  ∃ entry ∈ table, entry.key = key ∧ callerKey ∈ entry.callers.map Prod.fst

theorem hasCaller_cons {first : Reached} {rest : List Reached}
    {key callerKey : Json.Key} :
    HasCaller (first :: rest) key callerKey ↔
      first.key = key ∧ callerKey ∈ first.callers.map Prod.fst ∨
        HasCaller rest key callerKey := by
  simp only [HasCaller, List.mem_cons, exists_eq_or_imp]

/-- A note adds its own caller to its own function. -/
theorem hasCaller_noteReached {key callerKey other otherCaller : Json.Key}
    {name caller : Json} {table : List Reached} :
    HasCaller (noteReached key name callerKey caller table) other otherCaller ↔
      other = key ∧ otherCaller = callerKey ∨
        HasCaller table other otherCaller := by
  induction table with
  | nil =>
      rw [noteReached, hasCaller_cons, List.map_singleton, List.mem_singleton,
        eq_comm]
  | cons first rest inductionHypothesis =>
      rw [noteReached]
      split
      · next same =>
          rw [hasCaller_cons, hasCaller_cons, mem_callers_addCaller,
            (key_addCaller first callerKey caller).1, and_or_left, or_assoc, same,
            eq_comm]
      · rw [hasCaller_cons, hasCaller_cons, inductionHypothesis, or_left_comm]

/-! ### Notes along a list of calls -/

/-- The name of an internal function, and that of a root that reaches it. -/
structure InnerCall where
  function : Json
  caller : Json

/-- A table of calls.  Functions and callers are filed under the keys of their
names, each of them once. -/
structure Records (calls : List InnerCall) (table : List Reached) : Prop where
  distinct : (table.map Reached.key).Nodup
  named : ∀ entry ∈ table, entry.name.key? = some entry.key
  callersDistinct : ∀ entry ∈ table, (entry.callers.map Prod.fst).Nodup
  callersNamed : ∀ entry ∈ table, ∀ caller ∈ entry.callers,
    caller.2.key? = some caller.1
  mem_keys_iff : ∀ key, key ∈ table.map Reached.key ↔
    ∃ call ∈ calls, call.function.key? = some key
  hasCaller_iff : ∀ key callerKey, HasCaller table key callerKey ↔
    ∃ call ∈ calls, call.function.key? = some key ∧
      call.caller.key? = some callerKey

theorem records_nil : Records [] [] where
  distinct := List.nodup_nil
  named := List.forall_mem_nil _
  callersDistinct := List.forall_mem_nil _
  callersNamed := List.forall_mem_nil _
  mem_keys_iff key := by
    constructor
    · intro member
      cases member
    · rintro ⟨call, member, -⟩
      cases member
  hasCaller_iff key callerKey := by
    constructor
    · rintro ⟨entry, member, -⟩
      cases member
    · rintro ⟨call, member, -⟩
      cases member

/-- One note more. -/
theorem Records.noteReached {calls : List InnerCall} {table : List Reached}
    (records : Records calls table) {call : InnerCall}
    {key callerKey : Json.Key} (hasKey : call.function.key? = some key)
    (hasCallerKey : call.caller.key? = some callerKey) :
    Records (calls ++ [call])
      (noteReached key call.function callerKey call.caller table) where
  distinct := nodup_keys_noteReached records.distinct
  named := by
    refine forall_noteReached hasKey ?_ records.named
    intro entry named
    obtain ⟨sameKey, sameName⟩ := key_addCaller entry callerKey call.caller
    rw [sameKey, sameName, named]
  callersDistinct := by
    refine forall_noteReached (List.nodup_singleton callerKey) ?_
      records.callersDistinct
    intro entry distinct
    rcases addCaller_cases entry callerKey call.caller with
      ⟨-, same⟩ | ⟨fresh, added⟩
    · rw [same]
      exact distinct
    · rw [added, List.map_append, List.map_singleton, ← List.concat_eq_append]
      exact distinct.concat fresh
  callersNamed := by
    refine forall_noteReached (List.forall_mem_singleton.2 hasCallerKey) ?_
      records.callersNamed
    intro entry named
    rcases addCaller_cases entry callerKey call.caller with
      ⟨-, same⟩ | ⟨-, added⟩
    · rw [same]
      exact named
    · rw [added]
      exact List.forall_mem_append.2
        ⟨named, List.forall_mem_singleton.2 hasCallerKey⟩
  mem_keys_iff other := by
    rw [mem_keys_noteReached, records.mem_keys_iff]
    simp only [List.mem_append, List.mem_singleton, or_and_right, exists_or,
      exists_eq_left, hasKey, Option.some.injEq]
    rw [or_comm, eq_comm]
  hasCaller_iff other otherCaller := by
    rw [hasCaller_noteReached, records.hasCaller_iff]
    simp only [List.mem_append, List.mem_singleton, or_and_right, exists_or,
      exists_eq_left, hasKey, hasCallerKey, Option.some.injEq]
    rw [or_comm, @eq_comm _ key, @eq_comm _ callerKey]

/-- Notes a call under the keys of its names. -/
def note (table : List Reached) (call : InnerCall) :
    Except Fault (List Reached) := do
  let key ← keyOf call.function
  let callerKey ← keyOf call.caller
  return noteReached key call.function callerKey call.caller table

/-- The names of calls, in the order in which their keys are asked for. -/
def namesAsked (calls : List InnerCall) : List Json :=
  calls.flatMap fun call => [call.function, call.caller]

/-- The first name that has no key. -/
def unkeyed? (calls : List InnerCall) : Option Json :=
  (namesAsked calls).find? fun name => name.key?.isNone

private theorem keyOf_of_key? {name : Json} {key : Json.Key}
    (hasKey : name.key? = some key) : keyOf name = .ok key := by
  rw [keyOf, hasKey]

private theorem keyOf_of_unkeyed {name : Json} (noKey : name.key? = none) :
    keyOf name = .error (.noKey name.shape) := by
  rw [keyOf, noKey]

/-- The calls are noted up to the first name that has no key. -/
theorem foldlM_note {before : List InnerCall} {table : List Reached}
    (records : Records before table) (calls : List InnerCall) :
    (unkeyed? calls = none ∧ ∃ result, calls.foldlM note table = .ok result ∧
        Records (before ++ calls) result) ∨
      ∃ name, unkeyed? calls = some name ∧
        calls.foldlM note table = .error (.noKey name.shape) := by
  induction calls generalizing before table with
  | nil =>
      refine Or.inl ⟨rfl, table, rfl, ?_⟩
      rw [List.append_nil]
      exact records
  | cons call rest inductionHypothesis =>
      have asked : namesAsked (call :: rest) =
          call.function :: call.caller :: namesAsked rest := rfl
      rw [unkeyed?, asked, List.foldlM_cons, note]
      -- the name of the function is asked for its key before that of the root
      cases hasKey : call.function.key? with
      | none =>
          refine Or.inr ⟨call.function, ?_, ?_⟩
          · rw [List.find?_cons_of_pos (by rw [hasKey]; rfl)]
          · rw [keyOf_of_unkeyed hasKey]
            rfl
      | some key =>
          rw [List.find?_cons_of_neg (by rw [hasKey]; exact Bool.false_ne_true),
            keyOf_of_key? hasKey]
          cases hasCallerKey : call.caller.key? with
          | none =>
              refine Or.inr ⟨call.caller, ?_, ?_⟩
              · rw [List.find?_cons_of_pos (by rw [hasCallerKey]; rfl)]
              · rw [keyOf_of_unkeyed hasCallerKey]
                rfl
          | some callerKey =>
              rw [List.find?_cons_of_neg
                (by rw [hasCallerKey]; exact Bool.false_ne_true),
                keyOf_of_key? hasCallerKey, List.append_cons]
              exact inductionHypothesis (records.noteReached hasKey hasCallerKey)

/-! ### Calls below roots -/

/-- The internal functions below roots, in the order in which they are met. -/
def innerCalls (roots : List CallNode) : List InnerCall :=
  roots.flatMap fun root => root.internalBelow.map fun node =>
    { function := node.name, caller := root.name }

private theorem internalFunctions_eq (roots : List CallNode) :
    internalFunctions roots = (innerCalls roots).foldlM note [] := by
  rw [internalFunctions]
  generalize ([] : List Reached) = table
  induction roots generalizing table with
  | nil => rfl
  | cons root rest inductionHypothesis =>
      rw [innerCalls, List.flatMap_cons, List.foldlM_append, List.foldlM_map,
        List.foldlM_cons]
      exact bind_congr inductionHypothesis

/-- Properly below the root there is this node, and it is an internal call of a
function. -/
structure ReachesInside (root node : CallNode) : Prop where
  below : ∃ position, position ≠ [] ∧
    Traversal.nodeAt? children position root = some node
  internal : node.info.callType = .internal
  isFunction : node.isFunction = true

private theorem mem_internalBelow_iff {root node : CallNode} :
    node ∈ root.internalBelow ↔ root.ReachesInside node := by
  rw [internalBelow, List.mem_filter, isVisit.mem_children_iff,
    Bool.and_eq_true, decide_eq_true_eq]
  constructor
  · intro found
    exact ⟨found.1, found.2.1, found.2.2⟩
  · intro reaches
    exact ⟨reaches.below, reaches.internal, reaches.isFunction⟩

private theorem mem_innerCalls_iff {roots : List CallNode} {call : InnerCall} :
    call ∈ innerCalls roots ↔ ∃ root ∈ roots, ∃ node, root.ReachesInside node ∧
      { function := node.name, caller := root.name } = call := by
  simp only [innerCalls, List.mem_flatMap, List.mem_map, mem_internalBelow_iff]

private theorem exists_innerCalls_iff {roots : List CallNode}
    {holds : InnerCall → Prop} :
    (∃ call ∈ innerCalls roots, holds call) ↔
      ∃ root ∈ roots, ∃ node, root.ReachesInside node ∧
        holds { function := node.name, caller := root.name } := by
  constructor
  · intro found
    obtain ⟨call, member, isSo⟩ := found
    obtain ⟨root, isRoot, node, reaches, rfl⟩ := mem_innerCalls_iff.1 member
    exact ⟨root, isRoot, node, reaches, isSo⟩
  · intro found
    obtain ⟨root, isRoot, node, reaches, isSo⟩ := found
    exact ⟨_, mem_innerCalls_iff.2 ⟨root, isRoot, node, reaches, rfl⟩, isSo⟩

/-- The names of the internal functions below roots, and the names of these
roots, can be filed. -/
def NamesHaveKeys (roots : List CallNode) : Prop :=
  ∀ root ∈ roots, ∀ node, root.ReachesInside node →
    node.name.key? ≠ none ∧ root.name.key? ≠ none

private theorem unkeyed?_eq_none_iff {roots : List CallNode} :
    unkeyed? (innerCalls roots) = none ↔ NamesHaveKeys roots := by
  rw [unkeyed?, List.find?_eq_none, namesAsked, List.forall_mem_flatMap]
  constructor
  · intro keyed root isRoot node reaches
    have both := keyed _
      (mem_innerCalls_iff.2 ⟨root, isRoot, node, reaches, rfl⟩)
    rw [List.forall_mem_cons, List.forall_mem_singleton, Option.isNone_iff_eq_none,
      Option.isNone_iff_eq_none] at both
    exact both
  · intro keyed call member
    obtain ⟨root, isRoot, node, reaches, rfl⟩ := mem_innerCalls_iff.1 member
    rw [List.forall_mem_cons, List.forall_mem_singleton, Option.isNone_iff_eq_none,
      Option.isNone_iff_eq_none]
    exact keyed root isRoot node reaches

/-- The table has each internal function below the roots under the key of its
name, with the roots that reach it under the keys of theirs. -/
structure MapsToRoots (roots : List CallNode) (table : List Reached) : Prop where
  distinct : (table.map Reached.key).Nodup
  named : ∀ entry ∈ table, entry.name.key? = some entry.key
  mem_keys_iff : ∀ key, key ∈ table.map Reached.key ↔
    ∃ root ∈ roots, ∃ node, root.ReachesInside node ∧ node.name.key? = some key
  callersDistinct : ∀ entry ∈ table, (entry.callers.map Prod.fst).Nodup
  callersNamed : ∀ entry ∈ table, ∀ caller ∈ entry.callers,
    caller.2.key? = some caller.1
  mem_callers_iff : ∀ entry ∈ table, ∀ callerKey,
    callerKey ∈ entry.callers.map Prod.fst ↔
      ∃ root ∈ roots, ∃ node, root.ReachesInside node ∧
        node.name.key? = some entry.key ∧ root.name.key? = some callerKey

private theorem Records.mapsToRoots {roots : List CallNode}
    {table : List Reached}
    (records : Records (innerCalls roots) table) : MapsToRoots roots table where
  distinct := records.distinct
  named := records.named
  mem_keys_iff key := by
    rw [records.mem_keys_iff, exists_innerCalls_iff]
  callersDistinct := records.callersDistinct
  callersNamed := records.callersNamed
  mem_callers_iff entry isEntry callerKey := by
    have inTable : callerKey ∈ entry.callers.map Prod.fst ↔
        HasCaller table entry.key callerKey := by
      constructor
      · intro member
        exact ⟨entry, isEntry, rfl, member⟩
      · rintro ⟨other, isOther, sameKey, member⟩
        rw [List.inj_on_of_nodup_map records.distinct isOther isEntry sameKey]
          at member
        exact member
    rw [inTable, records.hasCaller_iff, exists_innerCalls_iff]

/-- The collection ends at the first name that has no key, or the table has
what it should. -/
theorem internalFunctions_cases (roots : List CallNode) :
    (NamesHaveKeys roots ∧
        ∃ table, internalFunctions roots = .ok table ∧
          MapsToRoots roots table) ∨
      (¬ NamesHaveKeys roots ∧
        ∃ name, unkeyed? (innerCalls roots) = some name ∧
          internalFunctions roots = .error (.noKey name.shape)) := by
  rw [internalFunctions_eq, ← unkeyed?_eq_none_iff]
  rcases foldlM_note records_nil (innerCalls roots) with
    ⟨keyed, table, noted, records⟩ | ⟨name, unkeyed, refused⟩
  · exact Or.inl ⟨keyed, table, noted, records.mapsToRoots⟩
  · refine Or.inr ⟨?_, name, unkeyed, refused⟩
    rw [unkeyed]
    exact Option.some_ne_none name

end ContractAtlas.CallNode
