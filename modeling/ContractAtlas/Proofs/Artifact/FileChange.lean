/-
Changes of one file.

A path is followed through folders only.  Writing over a file and removing one
leave all folders where they are, so that every other path leads to what it
led to before.
-/

import ContractAtlas.Artifact.FileStore

namespace ContractAtlas.FileStore

/-! ### Entries by their components -/

theorem lookup_cons_eq (place other : List (List Char)) (entry : Entry)
    (rest : List (List (List Char) × Entry)) :
    ((place, entry) :: rest).lookup other =
      if other = place then some entry else rest.lookup other := by
  by_cases same : other = place
  · rw [if_pos same, same, List.lookup_cons_self]
  · rw [if_neg same, List.lookup_cons, beq_eq_false_iff_ne.2 same]

private theorem lookup_putEntry (parts other : List (List Char)) (entry : Entry)
    (entries : List (List (List Char) × Entry)) :
    (putEntry parts entry entries).lookup other =
      if other = parts then some entry else entries.lookup other := by
  induction entries with
  | nil => rw [putEntry, lookup_cons_eq]
  | cons head rest inductionHypothesis =>
      obtain ⟨place, old⟩ := head
      rw [putEntry]
      by_cases atHead : place = parts
      · rw [if_pos atHead, lookup_cons_eq, lookup_cons_eq, atHead]
        by_cases same : other = parts
        · rw [if_pos same, if_pos same]
        · rw [if_neg same, if_neg same, if_neg same]
      · rw [if_neg atHead, lookup_cons_eq, lookup_cons_eq, inductionHypothesis]
        by_cases same : other = parts
        · have elsewhere : other ≠ place := by
            rw [same]
            exact fun equal => atHead equal.symm
          rw [if_neg elsewhere, if_pos same, if_pos same]
        · rw [if_neg same, if_neg same]

private theorem lookup_filter_ne (parts other : List (List Char))
    (entries : List (List (List Char) × Entry)) :
    (entries.filter fun entry => entry.1 ≠ parts).lookup other =
      if other = parts then none else entries.lookup other := by
  induction entries with
  | nil =>
      rw [List.filter_nil, List.lookup_nil, ite_self]
  | cons head rest inductionHypothesis =>
      obtain ⟨place, old⟩ := head
      by_cases atHead : place = parts
      · rw [List.filter_cons_of_neg (by simp [atHead]), inductionHypothesis,
          lookup_cons_eq, atHead]
        by_cases same : other = parts
        · rw [if_pos same, if_pos same]
        · rw [if_neg same, if_neg same, if_neg same]
      · rw [List.filter_cons_of_pos (by simp [atHead]), lookup_cons_eq,
          lookup_cons_eq, inductionHypothesis]
        by_cases same : other = parts
        · have elsewhere : other ≠ place := by
            rw [same]
            exact fun equal => atHead equal.symm
          rw [if_neg elsewhere, if_pos same, if_pos same]
        · rw [if_neg same, if_neg same]

/-! ### Paths lead through folders -/

def IsFolderAt (store : FileStore) (parts : List (List Char)) : Prop :=
  ∃ stamp, store.entryAt? parts = some (.folder stamp)

private theorem follow_cons_eq_ok {store : FileStore} {path : String}
    {above place : List (List Char)} {part : List Char}
    {rest : List (List Char)}
    (followed : store.follow path above (part :: rest) = .ok place) :
    store.IsFolderAt above := by
  rw [follow] at followed
  split at followed
  · cases followed
  · cases followed
  · rename_i stamp isFolder
    exact ⟨stamp, isFolder⟩

private theorem follow_of_isFolderAt {store : FileStore} {path : String}
    {above : List (List Char)} {part : List Char} {rest : List (List Char)}
    (isFolder : store.IsFolderAt above) :
    store.follow path above (part :: rest) =
      if part = [] ∨ part = Path.here then store.follow path above rest
      else if part = Path.up then store.follow path above.dropLast rest
      else if nameLimit < (Text.Utf8.encode part).length then
        .error (.fileNameTooLong path)
      else store.follow path (above ++ [part]) rest := by
  obtain ⟨stamp, found⟩ := isFolder
  rw [follow, found]

/-- Where the folders stay, a path leads to the same place. -/
theorem follow_of_folders {before after : FileStore}
    (folders : ∀ parts, after.IsFolderAt parts → before.IsFolderAt parts)
    {path : String} {above parts place : List (List Char)}
    (followed : after.follow path above parts = .ok place) :
    before.follow path above parts = .ok place := by
  induction parts generalizing above with
  | nil => exact followed
  | cons part rest inductionHypothesis =>
      have isFolder := follow_cons_eq_ok followed
      rw [follow_of_isFolderAt isFolder] at followed
      rw [follow_of_isFolderAt (folders above isFolder)]
      split at followed
      · rename_i stays
        rw [if_pos stays]
        exact inductionHypothesis followed
      · rename_i moves
        rw [if_neg moves]
        split at followed
        · rename_i climbs
          rw [if_pos climbs]
          exact inductionHypothesis followed
        · rename_i descends
          rw [if_neg descends]
          split at followed
          · cases followed
          · rename_i short
            rw [if_neg short]
            exact inductionHypothesis followed

private theorem locate_of_folders {before after : FileStore}
    (sameWorking : after.working = before.working)
    (folders : ∀ parts, after.IsFolderAt parts → before.IsFolderAt parts)
    {path : String} {place : List (List Char)}
    (located : after.locate path = .ok place) :
    before.locate path = .ok place := by
  rw [locate] at located ⊢
  split at located
  · cases located
  · rename_i usable
    rw [if_neg usable]
    split at located
    · cases located
    · rename_i nonempty
      rw [if_neg nonempty]
      split at located
      · cases located
      · rename_i short
        rw [if_neg short, ← sameWorking]
        exact follow_of_folders folders located

theorem entry_eq_ok_iff {store : FileStore} {path : String} {entry : Entry} :
    store.entry path = .ok entry ↔
      ∃ place, store.locate path = .ok place ∧
        store.entryAt? place = some entry := by
  rw [FileStore.entry]
  cases located : store.locate path with
  | error fault =>
      constructor
      · intro found
        cases found
      · rintro ⟨place, failed, -⟩
        cases failed
  | ok place =>
      simp only [bind, Except.bind, Except.ok.injEq, exists_eq_left']
      cases found : store.entryAt? place with
      | none =>
          constructor
          · intro missing
            cases missing
          · intro missing
            cases missing
      | some other =>
          simp only [pure, Except.pure, Except.ok.injEq, Option.some.injEq]

/-! ### Changes of one file -/

/-- Only one place changes, and no folder comes to be. -/
structure ChangesAt (before after : FileStore) (parts : List (List Char)) :
    Prop where
  working : after.working = before.working
  folders : ∀ other, after.IsFolderAt other → before.IsFolderAt other
  others : ∀ other, other ≠ parts →
    after.entryAt? other = before.entryAt? other

/-- What a path leads to is what it led to before, or what the change put in
its place. -/
theorem ChangesAt.entry_or {before after : FileStore}
    {parts : List (List Char)} (changes : ChangesAt before after parts)
    {path : String} {entry : Entry} (found : after.entry path = .ok entry) :
    before.entry path = .ok entry ∨ after.entryAt? parts = some entry := by
  obtain ⟨place, located, stands⟩ := entry_eq_ok_iff.1 found
  by_cases same : place = parts
  · right
    rw [← same]
    exact stands
  · left
    rw [changes.others place same] at stands
    exact entry_eq_ok_iff.2
      ⟨place, locate_of_folders changes.working changes.folders located, stands⟩

private theorem changesAt_of_entryAt? {before after : FileStore}
    {parts : List (List Char)}
    (sameWorking : after.working = before.working)
    (noFolder : ¬ after.IsFolderAt parts)
    (others : ∀ other, other ≠ parts →
      after.entryAt? other = before.entryAt? other) :
    ChangesAt before after parts := by
  refine ⟨sameWorking, ?_, others⟩
  rintro other ⟨stamp, isFolder⟩
  by_cases same : other = parts
  · rw [same] at isFolder
    exact absurd ⟨stamp, isFolder⟩ noFolder
  · rw [others other same] at isFolder
    exact ⟨stamp, isFolder⟩

private theorem ne_nil_of_file {store : FileStore} {parts : List (List Char)}
    {bytes : List UInt8} {stamp : Stamp}
    (isFile : store.entryAt? parts = some (.file bytes stamp)) :
    parts.isEmpty = false := by
  cases parts with
  | nil => cases isFile
  | cons => rfl

/-- Writing over a file puts the new content in its place. -/
theorem changesAt_write {store changed : FileStore} {path : String}
    {parts : List (List Char)} {old bytes : List UInt8} {time stamp : Stamp}
    (located : store.locate path = .ok parts)
    (isFile : store.entryAt? parts = some (.file old time))
    (written : store.write path bytes stamp = .ok changed) :
    ChangesAt store changed parts ∧
      changed.entryAt? parts = some (.file bytes stamp) := by
  have nonempty := ne_nil_of_file isFile
  have inPlace : changed =
      { store with
        entries := putEntry parts (.file bytes stamp) store.entries } := by
    rw [write, located] at written
    split at written
    · cases written
    · simp only [bind, Except.bind, pure, Except.pure, isFile, put,
        Option.isSome_some, if_true] at written
      exact (Except.ok.inj written).symm
  have stands : changed.entryAt? parts = some (.file bytes stamp) := by
    rw [inPlace, entryAt?, nonempty, lookup_putEntry, if_pos rfl]
    rfl
  refine ⟨changesAt_of_entryAt? (by rw [inPlace]) ?_ ?_, stands⟩
  · rintro ⟨other, isFolder⟩
    rw [stands] at isFolder
    cases isFolder
  · intro other different
    rw [inPlace, entryAt?, entryAt?, lookup_putEntry, if_neg different]

/-- Removing a file from a folder whose time of modification is up to date
leaves its place empty. -/
theorem changesAt_remove {store changed : FileStore} {path : String}
    {parts : List (List Char)} (located : store.locate path = .ok parts)
    (upToDate : store.touch parts.dropLast = store)
    (removed : store.remove path = .ok changed) :
    ChangesAt store changed parts ∧ changed.entryAt? parts = none := by
  rw [remove, located] at removed
  simp only [bind, Except.bind] at removed
  split at removed
  · rename_i old time isFile
    have nonempty := ne_nil_of_file isFile
    rw [upToDate] at removed
    cases removed
    have gone : FileStore.entryAt?
        { store with
          entries := store.entries.filter fun other => other.1 ≠ parts }
        parts = none := by
      rw [entryAt?, nonempty, lookup_filter_ne, if_pos rfl]
      rfl
    refine ⟨changesAt_of_entryAt? rfl ?_ ?_, gone⟩
    · rintro ⟨other, isFolder⟩
      rw [gone] at isFolder
      cases isFolder
    · intro other different
      rw [entryAt?, entryAt?, lookup_filter_ne, if_neg different]
  · cases removed
  · cases removed

end ContractAtlas.FileStore
