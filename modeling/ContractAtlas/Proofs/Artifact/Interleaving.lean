/-
Calls of a shared cache whose steps are interleaved.

A call takes the time of modification of a file, looks for an entry of that
time, and otherwise reads the file and keeps what it read.  Between any two of
these steps the file may change, entries may be dropped, and other calls may
go on.  As long as no path gets a time of modification for the second time, no
call returns what the file held only before the call began.
-/

import ContractAtlas.Artifact.Cache
import ContractAtlas.Proofs.Artifact.FileChange

namespace ContractAtlas

/-! ### Steps -/

/-- How far a call has come. -/
inductive Progress where
  | stamped (stamp : Stamp)
  | missed (stamp : Stamp)
  | loaded (stamp : Stamp) (compilation : Compilation)
  | returned (compilation : Compilation)
  | raised (fault : Fault)

namespace Progress

/-- The time of modification that the call goes by. -/
def stamp? : Progress → Option Stamp
  | stamped stamp => some stamp
  | missed stamp => some stamp
  | loaded stamp _ => some stamp
  | _ => none

/-- The compilation that the call is going to return or has returned. -/
def compilation? : Progress → Option Compilation
  | loaded _ compilation => some compilation
  | returned compilation => some compilation
  | _ => none

def ofOutcome : Except Fault Compilation → Progress
  | .ok compilation => returned compilation
  | .error fault => raised fault

def isOver : Progress → Bool
  | returned _ => true
  | raised _ => true
  | _ => false

end Progress

structure Call where
  /-- The moment of the first step. -/
  begun : Nat
  key : List Char
  progress : Progress

structure World where
  clock : Nat := 0
  files : FileStore
  cache : Cache := Cache.empty
  /-- The calls by number, in the order in which they began. -/
  calls : List Call := []

inductive Action where
  /-- Files are written or removed. -/
  | change (files : FileStore)
  | forget (path : String)
  | clear
  | stat (path : String)
  | lookUp (number : Nat)
  | load (number : Nat)
  | store (number : Nat)

/-- Loads the file of a key and reads what is in it. -/
def Cache.compilationIn (files : FileStore) (key : List Char) :
    Except Fault Compilation :=
  match Project.load files (String.ofList key) with
  | .error fault => .error fault
  | .ok document =>
      match (Reading.read document).outcome with
      | .error fault => .error fault
      | .ok found => .ok { found with source := key }

namespace Call

def begin (world : World) (path : String) : Call :=
  let key := Path.absolute world.files.working path.toList
  { begun := world.clock
    key := key
    progress :=
      match Cache.stampOf world.files key path with
      | .ok stamp => .stamped stamp
      | .error fault => .raised fault }

/-- A step of a call that has not come as far, or farther, does nothing. -/
def lookUp (cache : Cache) (call : Call) : Call :=
  match call.progress with
  | .stamped stamp =>
      match cache.valid? call.key stamp with
      | some compilation => { call with progress := .returned compilation }
      | none => { call with progress := .missed stamp }
  | _ => call

def load (files : FileStore) (call : Call) : Call :=
  match call.progress with
  | .missed stamp =>
      match Cache.compilationIn files call.key with
      | .ok compilation => { call with progress := .loaded stamp compilation }
      | .error fault => { call with progress := .raised fault }
  | _ => call

def finish (call : Call) : Call :=
  match call.progress with
  | .loaded _ compilation => { call with progress := .returned compilation }
  | _ => call

/-- The cache once the call has kept what it loaded. -/
def keptIn (cache : Cache) (call : Call) : Cache :=
  match call.progress with
  | .loaded stamp compilation => cache.store call.key stamp compilation
  | _ => cache

end Call

namespace World

/-- What an action changes, apart from the clock. -/
def act (world : World) : Action → World
  | .change files => { world with files := files }
  | .forget path =>
      { world with cache := world.cache.forget world.files.working path }
  | .clear => { world with cache := Cache.empty }
  | .stat path => { world with calls := world.calls ++ [Call.begin world path] }
  | .lookUp number =>
      { world with calls := world.calls.modify number (Call.lookUp world.cache) }
  | .load number =>
      { world with calls := world.calls.modify number (Call.load world.files) }
  | .store number =>
      { world with
        cache := (world.calls[number]?.map (Call.keptIn world.cache)).getD
          world.cache
        calls := world.calls.modify number Call.finish }

def after (world : World) (action : Action) : World :=
  { world.act action with clock := world.clock + 1 }

/-- A call whose steps follow each other. -/
def getAlone (world : World) (path : String) : World :=
  let number := world.calls.length
  (((world.after (.stat path)).after (.lookUp number)).after
    (.load number)).after (.store number)

end World

/-- The action is a step of the call of that number. -/
def Action.IsStepOf (world : World) (number : Nat) : Action → Prop
  | .stat _ => number = world.calls.length
  | .lookUp other => number = other
  | .load other => number = other
  | .store other => number = other
  | _ => False

/-- The world at each moment of a run, which starts with an empty cache and no
calls. -/
def history (files : FileStore) (actions : Nat → Action) : Nat → World
  | 0 => { files := files }
  | moment + 1 => (history files actions moment).after (actions moment)

/-- What comes to stand at a path has a time of modification that this path
never had. -/
def Fresh (files : FileStore) (actions : Nat → Action) : Prop :=
  ∀ now changed, actions now = .change changed →
    changed.working = files.working ∧
      ∀ path entry, changed.entry path = .ok entry →
        (history files actions now).files.entry path = .ok entry ∨
          ∀ earlier ≤ now, ∀ old,
            (history files actions earlier).files.entry path = .ok old →
              old.stamp ≠ entry.stamp

/-! ### What the files hold -/

/-- The compilation that the content of a file is parsed to. -/
def ParsedFrom (key : List Char) (bytes : List UInt8)
    (compilation : Compilation) : Prop :=
  ∃ text document found,
    Text.Utf8.decode? bytes = some text ∧
      Json.readWithin Project.limits (String.ofList text) = .ok document ∧
      (Reading.read document).outcome = .ok found ∧
      compilation = { found with source := key }

namespace World

def HasStamp (world : World) (key : List Char) (stamp : Stamp) : Prop :=
  ∃ entry, world.files.entry (String.ofList key) = .ok entry ∧
    entry.stamp = stamp

/-- The file of the key has content that is parsed to the compilation. -/
def Holds (world : World) (key : List Char) (compilation : Compilation) :
    Prop :=
  ∃ bytes stamp,
    world.files.entry (String.ofList key) = .ok (.file bytes stamp) ∧
      ParsedFrom key bytes compilation

end World

private theorem hasStamp_of_stampOf {world : World} {key : List Char}
    {path : String}
    {stamp : Stamp} (taken : Cache.stampOf world.files key path = .ok stamp) :
    world.HasStamp key stamp := by
  rw [Cache.stampOf] at taken
  split at taken
  · rename_i entry found
    exact ⟨entry, found, Except.ok.inj taken⟩
  · split at taken
    · cases taken
    · cases taken

private theorem exists_file_of_readText {files : FileStore} {path : String}
    {text : List Char} (succeeds : files.readText path = .ok text) :
    ∃ bytes stamp, files.entry path = .ok (.file bytes stamp) ∧
      Text.Utf8.decode? bytes = some text := by
  rw [FileStore.readText, FileStore.read] at succeeds
  cases found : files.entry path with
  | error fault =>
      rw [found] at succeeds
      cases succeeds
  | ok entry =>
      rw [found] at succeeds
      cases entry with
      | folder stamp => cases succeeds
      | file bytes stamp =>
          refine ⟨bytes, stamp, rfl, ?_⟩
          cases decoded : Text.Utf8.decode? bytes with
          | none =>
              simp only [pure, Except.pure, bind, Except.bind, decoded]
                at succeeds
              cases succeeds
          | some other =>
              simp only [pure, Except.pure, bind, Except.bind, decoded]
                at succeeds
              cases succeeds
              rfl

private theorem exists_file_of_load {files : FileStore} {path : String}
    {document : Json} (succeeds : Project.load files path = .ok document) :
    ∃ bytes stamp text, files.entry path = .ok (.file bytes stamp) ∧
      Text.Utf8.decode? bytes = some text ∧
      Json.readWithin Project.limits (String.ofList text) = .ok document := by
  rw [Project.load] at succeeds
  split at succeeds
  · cases succeeds
  · cases succeeds
  · rename_i text found
    obtain ⟨bytes, stamp, isFile, decoded⟩ := exists_file_of_readText found
    refine ⟨bytes, stamp, text, isFile, decoded, ?_⟩
    split at succeeds
    · rename_i other parsed
      rw [parsed, Except.ok.inj succeeds]
    all_goals cases succeeds

private theorem holds_of_compilationIn {world : World} {key : List Char}
    {compilation : Compilation}
    (read : Cache.compilationIn world.files key = .ok compilation) :
    world.Holds key compilation := by
  rw [Cache.compilationIn] at read
  split at read
  · cases read
  · rename_i document loaded
    obtain ⟨bytes, stamp, text, isFile, decoded, parsed⟩ :=
      exists_file_of_load loaded
    split at read
    · cases read
    · rename_i found accepted
      exact ⟨bytes, stamp, isFile, text, document, found, decoded, parsed,
        accepted, (Except.ok.inj read).symm⟩

/-! ### Times of modification -/

section

variable {files : FileStore} {actions : Nat → Action}

private theorem clock_history (files : FileStore) (actions : Nat → Action)
    (moment : Nat) : (history files actions moment).clock = moment := by
  induction moment with
  | zero => rfl
  | succ moment inductionHypothesis =>
      rw [history, World.after, inductionHypothesis]

private theorem files_act {world : World} {action : Action}
    (unchanged : ∀ files, action ≠ .change files) :
    (world.act action).files = world.files := by
  cases action with
  | change files => exact absurd rfl (unchanged files)
  | forget | clear | stat | lookUp | load | store => rfl

/-- What stands at a path after a step stood there before, or its time of
modification is new. -/
theorem Fresh.step (fresh : Fresh files actions) {moment : Nat}
    {path : String} {entry : Entry}
    (found :
      (history files actions (moment + 1)).files.entry path = .ok entry) :
    (history files actions moment).files.entry path = .ok entry ∨
      ∀ earlier ≤ moment, ∀ old,
        (history files actions earlier).files.entry path = .ok old →
          old.stamp ≠ entry.stamp := by
  rw [history, World.after] at found
  by_cases changes : ∃ changed, actions moment = .change changed
  · obtain ⟨changed, isChange⟩ := changes
    rw [isChange] at found
    exact (fresh moment changed isChange).2 path entry found
  · left
    rw [files_act fun changed same => changes ⟨changed, same⟩] at found
    exact found

/-- Between two moments with the same time of modification nothing else
stands at the path. -/
theorem Fresh.steady (fresh : Fresh files actions) {path : String}
    {first last : Nat} {old entry : Entry} (order : first ≤ last)
    (before : (history files actions first).files.entry path = .ok old)
    (found : (history files actions last).files.entry path = .ok entry)
    (same : old.stamp = entry.stamp) {middle : Nat} (late : first ≤ middle)
    (early : middle ≤ last) :
    (history files actions middle).files.entry path = .ok entry := by
  induction last with
  | zero =>
      have atStart : middle = 0 := by omega
      rw [atStart]
      exact found
  | succ last inductionHypothesis =>
      by_cases atEnd : middle = last + 1
      · rw [atEnd]
        exact found
      · rcases fresh.step found with stood | never
        · exact inductionHypothesis (by omega) stood (by omega)
        · exact absurd same (never first (by omega) old before)

private theorem Fresh.holds_of_hasStamp (fresh : Fresh files actions)
    {key : List Char} {stamp : Stamp} {compilation : Compilation}
    {seen middle last : Nat} (late : seen ≤ middle) (early : middle ≤ last)
    (before : (history files actions seen).HasStamp key stamp)
    (after : (history files actions last).HasStamp key stamp)
    (holds : (history files actions middle).Holds key compilation) :
    (history files actions last).Holds key compilation := by
  obtain ⟨old, stood, oldStamp⟩ := before
  obtain ⟨entry, stands, entryStamp⟩ := after
  obtain ⟨bytes, time, isFile, parsed⟩ := holds
  have unchanged := fresh.steady (Nat.le_trans late early) stood stands
    (oldStamp.trans entryStamp.symm) late early
  rw [isFile] at unchanged
  rw [← unchanged] at stands
  exact ⟨bytes, time, stands, parsed⟩

end

/-! ### Entries and calls go back to moments of the run -/

section

variable (past : Nat → World) (now : Nat)

/-- The time of an entry was taken no later than what it holds was read. -/
def Backed (key : List Char) (entry : CacheEntry) : Prop :=
  ∃ seen read, seen ≤ read ∧ read ≤ now ∧
    (past seen).HasStamp key entry.stamp ∧
    (past read).Holds key entry.compilation

structure Call.Sound (call : Call) : Prop where
  begun : call.begun ≤ now
  stamped : ∀ stamp, call.progress.stamp? = some stamp →
    (past call.begun).HasStamp call.key stamp
  compiled : ∀ compilation, call.progress.compilation? = some compilation →
    ∃ moment, call.begun ≤ moment ∧ moment ≤ now ∧
      (past moment).Holds call.key compilation

structure Consistent : Prop where
  calls : ∀ call ∈ (past now).calls, call.Sound past now
  entries : ∀ key entry, (key, entry) ∈ (past now).cache.entries →
    Backed past now key entry

end

section

variable {past : Nat → World} {now : Nat}

theorem Backed.later {key : List Char} {entry : CacheEntry}
    (backed : Backed past now key entry) : Backed past (now + 1) key entry := by
  obtain ⟨seen, read, order, early, stamped, holds⟩ := backed
  exact ⟨seen, read, order, by omega, stamped, holds⟩

theorem Call.Sound.later {call : Call} (sound : call.Sound past now) :
    call.Sound past (now + 1) := by
  refine ⟨Nat.le_succ_of_le sound.begun, sound.stamped, ?_⟩
  intro compilation holds
  obtain ⟨moment, late, early, held⟩ := sound.compiled compilation holds
  exact ⟨moment, late, by omega, held⟩

private theorem mem_entries_of_valid? {cache : Cache} {key : List Char}
    {stamp : Stamp}
    {compilation : Compilation}
    (found : cache.valid? key stamp = some compilation) :
    ∃ entry, (key, entry) ∈ cache.entries ∧ entry.stamp = stamp ∧
      entry.compilation = compilation := by
  rw [Cache.valid?] at found
  split at found
  · rename_i entry known
    split at found
    · rename_i sameStamp
      obtain ⟨before, after, listed, -⟩ := List.lookup_eq_some_iff.1 known
      refine ⟨entry, ?_, sameStamp, Option.some.inj found⟩
      rw [listed]
      exact List.mem_append_right before List.mem_cons_self
    · cases found
  · cases found

private theorem mem_entries_of_forgetKey {cache : Cache} {key other : List Char}
    {entry : CacheEntry}
    (member : (other, entry) ∈ (cache.forgetKey key).entries) :
    (other, entry) ∈ cache.entries :=
  (List.mem_filter.1 member).1

private theorem mem_entries_of_keptIn {cache : Cache} {call : Call}
    {key : List Char}
    {entry : CacheEntry} (member : (key, entry) ∈ (call.keptIn cache).entries) :
    (key, entry) ∈ cache.entries ∨
      key = call.key ∧ call.progress.stamp? = some entry.stamp ∧
        call.progress.compilation? = some entry.compilation := by
  rw [Call.keptIn] at member
  split at member
  · rename_i stamp compilation loaded
    rcases List.mem_cons.1 member with same | older
    · cases same
      rw [loaded]
      exact Or.inr ⟨rfl, rfl, rfl⟩
    · exact Or.inl (mem_entries_of_forgetKey older)
  · exact Or.inl member

/-- A step of one call changes that call only. -/
theorem mem_of_modify {change : Call → Call} {calls : List Call} {number : Nat}
    {call : Call} (member : call ∈ calls.modify number change) :
    call ∈ calls ∨ ∃ old ∈ calls, call = change old := by
  obtain ⟨place, found⟩ := List.mem_iff_getElem?.1 member
  rw [List.getElem?_modify] at found
  obtain ⟨old, wasThere, rfl⟩ := Option.map_eq_some_iff.1 found
  have wasCall := List.mem_of_getElem? wasThere
  split
  · exact Or.inr ⟨old, wasCall, rfl⟩
  · exact Or.inl wasCall

private theorem sound_begin (path : String) (clock : (past now).clock = now) :
    (Call.begin (past now) path).Sound past (now + 1) := by
  have begun : (Call.begin (past now) path).begun = now := clock
  constructor
  case begun => omega
  case stamped =>
    intro stamp taken
    rw [begun]
    rw [Call.begin] at taken ⊢
    dsimp only at taken ⊢
    split at taken
    · rename_i found isStamp
      cases taken
      exact hasStamp_of_stampOf isStamp
    · cases taken
  case compiled =>
    intro compilation taken
    rw [Call.begin] at taken
    dsimp only at taken
    split at taken
    · cases taken
    · cases taken

/-- A call that finds an entry returns what the file held when the call began
or later. -/
theorem sound_lookUp {call : Call} (sound : call.Sound past now)
    (settled : ∀ key stamp compilation seen read, seen ≤ read →
      read ≤ call.begun → (past seen).HasStamp key stamp →
      (past call.begun).HasStamp key stamp →
      (past read).Holds key compilation →
      (past call.begun).Holds key compilation)
    (backed : ∀ key entry, (key, entry) ∈ (past now).cache.entries →
      Backed past now key entry) :
    (call.lookUp (past now).cache).Sound past (now + 1) := by
  rw [Call.lookUp]
  split
  · rename_i stamp isStamped
    have stampThen := sound.stamped stamp (by rw [isStamped]; rfl)
    split
    · rename_i compilation found
      obtain ⟨entry, member, sameStamp, rfl⟩ := mem_entries_of_valid? found
      obtain ⟨seen, read, order, early, seenStamp, holds⟩ :=
        backed call.key entry member
      rw [sameStamp] at seenStamp
      refine ⟨Nat.le_succ_of_le sound.begun, nofun, ?_⟩
      intro other same
      cases same
      by_cases readLate : call.begun ≤ read
      · exact ⟨read, readLate, by omega, holds⟩
      · have began := sound.begun
        exact ⟨call.begun, Nat.le_refl _, by omega,
          settled call.key stamp entry.compilation seen read order (by omega)
            seenStamp stampThen holds⟩
    · refine ⟨Nat.le_succ_of_le sound.begun, ?_, nofun⟩
      intro other same
      cases same
      exact stampThen
  · exact sound.later

private theorem sound_load {call : Call} (sound : call.Sound past now) :
    (call.load (past now).files).Sound past (now + 1) := by
  rw [Call.load]
  split
  · rename_i stamp isMissed
    have stampThen := sound.stamped stamp (by rw [isMissed]; rfl)
    split
    · rename_i compilation read
      constructor
      case begun => exact Nat.le_succ_of_le sound.begun
      case stamped =>
        intro other same
        cases same
        exact stampThen
      case compiled =>
        intro other same
        cases same
        exact ⟨now, sound.begun, Nat.le_succ now, holds_of_compilationIn read⟩
    · exact ⟨Nat.le_succ_of_le sound.begun, nofun, nofun⟩
  · exact sound.later

private theorem sound_finish {call : Call} (sound : call.Sound past now) :
    call.finish.Sound past (now + 1) := by
  rw [Call.finish]
  split
  · rename_i stamp compilation isLoaded
    refine ⟨Nat.le_succ_of_le sound.begun, nofun, ?_⟩
    intro other same
    cases same
    exact sound.later.compiled compilation (by rw [isLoaded]; rfl)
  · exact sound.later

end

section

variable {files : FileStore} {actions : Nat → Action}

/-- What one step preserves. -/
theorem Fresh.consistent_succ (fresh : Fresh files actions) {now : Nat}
    (consistent : Consistent (history files actions) now) :
    Consistent (history files actions) (now + 1) := by
  obtain ⟨calls, entries⟩ := consistent
  have stepped : history files actions (now + 1) =
      (history files actions now).after (actions now) := rfl
  have oldCall : ∀ call ∈ (history files actions now).calls,
      call.Sound (history files actions) (now + 1) :=
    fun call member => (calls call member).later
  have oldEntry : ∀ key entry,
      (key, entry) ∈ (history files actions now).cache.entries →
        Backed (history files actions) (now + 1) key entry :=
    fun key entry member => (entries key entry member).later
  cases action : actions now with
  | change changed =>
      rw [action] at stepped
      exact ⟨by rw [stepped]; exact oldCall, by rw [stepped]; exact oldEntry⟩
  | forget path =>
      rw [action] at stepped
      refine ⟨by rw [stepped]; exact oldCall, ?_⟩
      intro key entry member
      rw [stepped] at member
      exact oldEntry key entry (mem_entries_of_forgetKey member)
  | clear =>
      rw [action] at stepped
      refine ⟨by rw [stepped]; exact oldCall, ?_⟩
      intro key entry member
      rw [stepped] at member
      cases member
  | stat path =>
      rw [action] at stepped
      refine ⟨?_, by rw [stepped]; exact oldEntry⟩
      intro call member
      rw [stepped] at member
      rcases List.mem_append.1 member with older | newest
      · exact oldCall call older
      · rw [List.mem_singleton.1 newest]
        exact sound_begin path (clock_history files actions now)
  | lookUp number =>
      rw [action] at stepped
      refine ⟨?_, by rw [stepped]; exact oldEntry⟩
      intro call member
      rw [stepped] at member
      rcases mem_of_modify member with older | ⟨old, wasCall, rfl⟩
      · exact oldCall call older
      · apply sound_lookUp (calls old wasCall) ?_ entries
        intro key stamp compilation seen read order early before after holds
        exact fresh.holds_of_hasStamp order early before after holds
  | load number =>
      rw [action] at stepped
      refine ⟨?_, by rw [stepped]; exact oldEntry⟩
      intro call member
      rw [stepped] at member
      rcases mem_of_modify member with older | ⟨old, wasCall, rfl⟩
      · exact oldCall call older
      · exact sound_load (calls old wasCall)
  | store number =>
      rw [action] at stepped
      constructor
      · intro call member
        rw [stepped] at member
        rcases mem_of_modify member with older | ⟨old, wasCall, rfl⟩
        · exact oldCall call older
        · exact sound_finish (calls old wasCall)
      · intro key entry member
        rw [stepped] at member
        cases found : (history files actions now).calls[number]? with
        | none =>
            simp only [World.after, World.act, found] at member
            exact oldEntry key entry member
        | some call =>
            simp only [World.after, World.act, found] at member
            have sound := calls call (List.mem_of_getElem? found)
            rcases mem_entries_of_keptIn member with
              older | ⟨rfl, hasStamp, hasCompilation⟩
            · exact oldEntry key entry older
            · obtain ⟨read, late, early, holds⟩ :=
                sound.compiled _ hasCompilation
              exact ⟨call.begun, read, late, by omega,
                sound.stamped _ hasStamp, holds⟩

/-- What a whole run preserves. -/
theorem Fresh.consistent (fresh : Fresh files actions) (now : Nat) :
    Consistent (history files actions) now := by
  induction now with
  | zero =>
      constructor
      · intro call member
        exact absurd member List.not_mem_nil
      · intro key entry member
        exact absurd member List.not_mem_nil
  | succ now inductionHypothesis =>
      exact fresh.consistent_succ inductionHypothesis

end

/-! ### Calls that are over -/

private theorem Call.lookUp_of_isOver {cache : Cache} {call : Call}
    (ended : call.progress.isOver = true) : call.lookUp cache = call := by
  rw [lookUp]
  split
  · rename_i stamp isStamped
    rw [isStamped] at ended
    cases ended
  · rfl

private theorem Call.load_of_isOver {files : FileStore} {call : Call}
    (ended : call.progress.isOver = true) : call.load files = call := by
  rw [load]
  split
  · rename_i stamp isMissed
    rw [isMissed] at ended
    cases ended
  · rfl

private theorem Call.finish_of_isOver {call : Call}
    (ended : call.progress.isOver = true) : call.finish = call := by
  rw [finish]
  split
  · rename_i stamp compilation isLoaded
    rw [isLoaded] at ended
    cases ended
  · rfl

private theorem getElem?_modify_of_fixed {change : Call → Call}
    {calls : List Call}
    {number other : Nat} {call : Call} (found : calls[number]? = some call)
    (fixed : change call = call) :
    (calls.modify other change)[number]? = some call := by
  rw [List.getElem?_modify, found]
  by_cases same : other = number
  · simp [same, fixed]
  · simp [same]

private theorem call_after_of_isOver {world : World} {number : Nat}
    {call : Call}
    (found : world.calls[number]? = some call)
    (ended : call.progress.isOver = true) (action : Action) :
    (world.after action).calls[number]? = some call := by
  cases action with
  | change | forget | clear => exact found
  | stat path =>
      obtain ⟨inside, -⟩ := List.getElem?_eq_some_iff.1 found
      have kept : (world.calls ++ [Call.begin world path])[number]? =
          world.calls[number]? := List.getElem?_append_left inside
      exact kept.trans found
  | lookUp other =>
      exact getElem?_modify_of_fixed found (Call.lookUp_of_isOver ended)
  | load other =>
      exact getElem?_modify_of_fixed found (Call.load_of_isOver ended)
  | store other =>
      exact getElem?_modify_of_fixed found (Call.finish_of_isOver ended)

private theorem call_history_of_isOver {files : FileStore}
    {actions : Nat → Action}
    {number first last : Nat} {call : Call} (order : first ≤ last)
    (found : (history files actions first).calls[number]? = some call)
    (ended : call.progress.isOver = true) :
    (history files actions last).calls[number]? = some call := by
  induction last with
  | zero =>
      have atStart : first = 0 := by omega
      rw [atStart] at found
      exact found
  | succ last inductionHypothesis =>
      by_cases atEnd : first = last + 1
      · rw [atEnd] at found
        exact found
      · exact call_after_of_isOver (inductionHypothesis (by omega)) ended _

/-- A step of a call changes the entries only if it is the last step of a call
that has loaded something. -/
theorem cache_after_of_isStepOf {world : World} {number : Nat}
    {action : Action} (isStep : action.IsStepOf world number) :
    (world.after action).cache = world.cache ∨
      ∃ call stamp compilation, world.calls[number]? = some call ∧
        call.progress = .loaded stamp compilation ∧
        (world.after action).calls[number]? =
          some { call with progress := .returned compilation } := by
  cases action with
  | change | forget | clear => exact isStep.elim
  | stat | lookUp | load => exact Or.inl rfl
  | store other =>
      obtain rfl : number = other := isStep
      cases found : world.calls[number]? with
      | none =>
          left
          simp only [World.after, World.act, found]
          rfl
      | some call =>
          cases loaded : call.progress with
          | stamped | missed | returned | raised =>
              left
              simp only [World.after, World.act, found, Option.map_some,
                Call.keptIn, loaded]
              rfl
          | loaded stamp compilation =>
              right
              refine ⟨call, stamp, compilation, rfl, loaded, ?_⟩
              simp only [World.after, World.act, List.getElem?_modify, found]
              simp [Call.finish, loaded]

private theorem cache_unchanged_of_raised {files : FileStore}
    {actions : Nat → Action}
    {now number : Nat} {call : Call} {fault : Fault}
    (found : (history files actions now).calls[number]? = some call)
    (raised : call.progress = .raised fault) {time : Nat}
    (isStep : (actions time).IsStepOf (history files actions time) number) :
    (history files actions (time + 1)).cache =
      (history files actions time).cache := by
  have ended : call.progress.isOver = true := by
    rw [raised]
    rfl
  rcases cache_after_of_isStepOf isStep with
    unchanged | ⟨other, stamp, compilation, wasThere, loaded, finished⟩
  · exact unchanged
  · by_cases early : time + 1 ≤ now
    · have persists := call_history_of_isOver early finished rfl
      rw [found] at persists
      cases persists
      cases raised
    · have later : now ≤ time := by omega
      have persists := call_history_of_isOver later found ended
      rw [wasThere] at persists
      cases persists
      rw [loaded] at raised
      cases raised

/-! ### Calls whose steps follow each other -/

theorem modify_length_append {α : Type} (change : α → α) (items : List α)
    (last : α) :
    (items ++ [last]).modify items.length change = items ++ [change last] := by
  induction items with
  | nil => rfl
  | cons item rest inductionHypothesis =>
      rw [List.cons_append, List.length_cons, List.modify_succ_cons,
        inductionHypothesis, List.cons_append]

private theorem calls_getAlone (world : World) (path : String) :
    (world.getAlone path).calls =
      world.calls ++
        [(((Call.begin world path).lookUp world.cache).load
          world.files).finish] := by
  simp only [World.getAlone, World.after, World.act, modify_length_append]

private theorem cache_getAlone (world : World) (path : String) :
    (world.getAlone path).cache =
      (((Call.begin world path).lookUp world.cache).load world.files).keptIn
        world.cache := by
  simp only [World.getAlone, World.after, World.act, modify_length_append]
  rw [List.getElem?_append_right (Nat.le_refl _), Nat.sub_self,
    List.getElem?_cons_zero, Option.map_some, Option.getD_some]

/-- Without other steps in between, a call is a look into the cache: it ends
as that ends, and a fault leaves the cache as it was. -/
structure ServesAs (world : World) (path : String) : Prop where
  calls :
    (world.getAlone path).calls =
      world.calls ++
        [{ begun := world.clock
           key := Path.absolute world.files.working path.toList
           progress :=
            .ofOutcome
              ((world.cache.get world.files path).outcome.map
                fun served => served.2.compilation) }]
  cache :
    (world.getAlone path).cache =
      ((world.cache.get world.files path).outcome.toOption.map
        Prod.fst).getD world.cache

/-- The outcome of a look into the cache, step by step. -/
theorem outcome_get (cache : Cache) (files : FileStore) (path : String) :
    (cache.get files path).outcome =
      (Cache.stampOf files (Path.absolute files.working path.toList)
        path).bind fun stamp =>
          ((cache.valid? (Path.absolute files.working path.toList) stamp).map
            fun compilation =>
              .ok (cache, { compilation := compilation, isHit := true })).getD
            ((Cache.compilationIn files
              (Path.absolute files.working path.toList)).map
                fun compilation =>
                  (cache.store (Path.absolute files.working path.toList) stamp
                    compilation,
                    { compilation := compilation, isHit := false })) := by
  rw [Cache.get, Journal.outcome_bind, Journal.outcome_ofExcept]
  generalize Path.absolute files.working path.toList = key
  congr 1
  funext stamp
  cases cache.valid? key stamp with
  | some compilation => rfl
  | none =>
      rw [Journal.outcome_bind, Journal.outcome_ofExcept, Cache.compilationIn]
      cases Project.load files (String.ofList key) with
      | error fault => rfl
      | ok document =>
          simp only [Except.bind]
          rw [Journal.outcome_bind]
          cases (Reading.read document).outcome with
          | error fault => rfl
          | ok found => rfl

private theorem servesAs (world : World) (path : String) :
    ServesAs world path := by
  suffices both : _ ∧ _ from ⟨both.1, both.2⟩
  rw [outcome_get, calls_getAlone, cache_getAlone]
  cases taken : Cache.stampOf world.files
      (Path.absolute world.files.working path.toList) path with
  | error fault =>
      have began : Call.begin world path =
          { begun := world.clock
            key := Path.absolute world.files.working path.toList
            progress := .raised fault } := by
        simp only [Call.begin, taken]
      rw [began]
      exact ⟨rfl, rfl⟩
  | ok stamp =>
      have began : Call.begin world path =
          { begun := world.clock
            key := Path.absolute world.files.working path.toList
            progress := .stamped stamp } := by
        simp only [Call.begin, taken]
      rw [began]
      cases known : world.cache.valid?
          (Path.absolute world.files.working path.toList) stamp with
      | some compilation =>
          simp only [Call.lookUp, known, Except.bind]
          exact ⟨rfl, rfl⟩
      | none =>
          cases read : Cache.compilationIn world.files
              (Path.absolute world.files.working path.toList) with
          | error fault =>
              simp only [Call.lookUp, known, Call.load, read, Except.bind]
              exact ⟨rfl, rfl⟩
          | ok compilation =>
              simp only [Call.lookUp, known, Call.load, read, Except.bind]
              exact ⟨rfl, rfl⟩

/-- No call returns a compilation that was out of date before the call began,
no entry with the time of modification of its file holds anything but what
the file holds, and a call that raises a fault leaves all entries as they
were. -/
theorem cache_serves_nothing_stale (files : FileStore)
    (actions : Nat → Action) (fresh : Fresh files actions) :
    (∀ now, ∀ call ∈ (history files actions now).calls, ∀ compilation,
      call.progress = .returned compilation →
        ∃ moment, call.begun ≤ moment ∧ moment ≤ now ∧
          (history files actions moment).Holds call.key compilation) ∧
    (∀ now key entry,
      (key, entry) ∈ (history files actions now).cache.entries →
        (history files actions now).HasStamp key entry.stamp →
          (history files actions now).Holds key entry.compilation) ∧
    (∀ now number call fault,
      (history files actions now).calls[number]? = some call →
        call.progress = .raised fault →
          ∀ time, (actions time).IsStepOf (history files actions time) number →
            (history files actions (time + 1)).cache =
              (history files actions time).cache) ∧
    ∀ now path, ServesAs (history files actions now) path := by
  refine ⟨?_, ?_, ?_, ?_⟩
  · intro now call member compilation returned
    apply ((fresh.consistent now).calls call member).compiled compilation
    rw [returned]
    rfl
  · intro now key entry member current
    obtain ⟨seen, read, order, early, stamped, holds⟩ :=
      (fresh.consistent now).entries key entry member
    exact fresh.holds_of_hasStamp order early stamped current holds
  · intro now number call fault found raised time isStep
    exact cache_unchanged_of_raised found raised isStep
  · intro now path
    exact servesAs _ path

/-! ### A file that changes during two calls -/

def artifactPlace : List (List Char) := ["a.json".toList]

/-- The file of an artifact, in a folder of its own. -/
def storeWith (content : String) (stamp : Int) : FileStore :=
  { working := ['/']
    entries :=
      [(artifactPlace, .file (Text.Utf8.encode content.toList) (some stamp))] }

/-- The first call looks for an entry, and the file is written before the call
goes on.  The second call looks for an entry, and the file is removed. -/
def race : Nat → Action
  | 0 => .stat "a.json"
  | 1 => .lookUp 0
  | 2 => .change (storeWith "{}" 2)
  | 3 => .load 0
  | 4 => .store 0
  | 5 => .stat "a.json"
  | 6 => .lookUp 1
  | 7 => .change { working := ['/'] }
  | 8 => .load 1
  | _ => .store 1

private theorem race_eq_change {now : Nat} {changed : FileStore}
    (isChange : race now = .change changed) :
    now = 2 ∧ changed = storeWith "{}" 2 ∨
      now = 7 ∧ changed = { working := ['/'] } := by
  rw [race.eq_def] at isChange
  split at isChange
  all_goals first | cases isChange
  · exact Or.inl ⟨rfl, rfl⟩
  · exact Or.inr ⟨rfl, rfl⟩

private theorem write_storeWith :
    (storeWith "[]" 1).write "a.json" (Text.Utf8.encode "{}".toList) (some 2) =
      .ok (storeWith "{}" 2) := by
  rfl

private theorem remove_storeWith :
    (storeWith "{}" 2).remove "a.json" = .ok { working := ['/'] } := by
  rfl

private theorem stamp_storeWith {content : String} {stamp : Int} {path : String}
    {entry : Entry} (found : (storeWith content stamp).entry path = .ok entry) :
    entry.stamp = none ∨ entry.stamp = some stamp := by
  obtain ⟨place, -, stands⟩ := FileStore.entry_eq_ok_iff.1 found
  rw [FileStore.entryAt?] at stands
  split at stands
  · cases stands
    exact Or.inl rfl
  · rw [storeWith, FileStore.lookup_cons_eq] at stands
    split at stands
    · cases stands
      exact Or.inr rfl
    · cases stands

private theorem files_race {moment : Nat} (early : moment ≤ 2) :
    (history (storeWith "[]" 1) race moment).files = storeWith "[]" 1 := by
  obtain rfl | rfl | rfl : moment = 0 ∨ moment = 1 ∨ moment = 2 := by omega
  · rfl
  · rfl
  · rfl

private theorem locate_storeWith (content : String) (stamp : Int) :
    (storeWith content stamp).locate "a.json" = .ok artifactPlace := by
  rfl

private theorem entryAt?_storeWith (content : String) (stamp : Int) :
    (storeWith content stamp).entryAt? artifactPlace =
      some (.file (Text.Utf8.encode content.toList) (some stamp)) := by
  rfl

private theorem fresh_race : Fresh (storeWith "[]" 1) race := by
  intro now changed isChange
  rcases race_eq_change isChange with ⟨rfl, rfl⟩ | ⟨rfl, rfl⟩
  · refine ⟨rfl, ?_⟩
    intro path entry found
    obtain ⟨changes, written⟩ := FileStore.changesAt_write
      (locate_storeWith "[]" 1) (entryAt?_storeWith "[]" 1) write_storeWith
    rcases changes.entry_or found with stood | isNew
    · exact Or.inl stood
    · right
      intro earlier early old before
      rw [written] at isNew
      cases isNew
      rw [files_race early] at before
      rcases stamp_storeWith before with folder | file
      · rw [folder]
        nofun
      · rw [file]
        decide
  · refine ⟨rfl, ?_⟩
    intro path entry found
    obtain ⟨changes, gone⟩ := FileStore.changesAt_remove
      (locate_storeWith "{}" 2) rfl remove_storeWith
    rcases changes.entry_or found with stood | isNew
    · exact Or.inl stood
    · rw [gone] at isNew
      cases isNew

theorem race_serves_nothing_stale :
    Fresh (storeWith "[]" 1) race ∧
      ∃ first second compilation fault,
        (history (storeWith "[]" 1) race 9).calls = [first, second] ∧
          first.progress = .returned compilation ∧
          (∃ moment, first.begun ≤ moment ∧ moment ≤ 9 ∧
            (history (storeWith "[]" 1) race moment).Holds first.key
              compilation) ∧
          second.progress = .raised fault ∧
          (history (storeWith "[]" 1) race 9).cache =
            (history (storeWith "[]" 1) race 8).cache := by
  have evaluated :
      (history (storeWith "[]" 1) race 9).calls.map (fun call =>
        (call.progress.isOver, call.progress.compilation?.isSome)) =
      [(true, true), (true, false)] := by
    decide +kernel
  obtain ⟨served, -, unharmed, -⟩ :=
    cache_serves_nothing_stale (storeWith "[]" 1) race fresh_race
  obtain ⟨first, rest, listed, isReturned, evaluated⟩ :=
    List.map_eq_cons_iff.1 evaluated
  obtain ⟨second, rfl, isRaised⟩ := List.map_eq_singleton_iff.1 evaluated
  obtain ⟨compilation, returned⟩ : ∃ compilation,
      first.progress = .returned compilation := by
    cases progress : first.progress with
    | returned compilation => exact ⟨compilation, rfl⟩
    | stamped | missed | loaded | raised =>
        rw [progress] at isReturned
        cases isReturned
  obtain ⟨fault, raised⟩ : ∃ fault, second.progress = .raised fault := by
    cases progress : second.progress with
    | raised fault => exact ⟨fault, rfl⟩
    | stamped | missed | loaded | returned =>
        rw [progress] at isRaised
        cases isRaised
  refine ⟨fresh_race, first, second, compilation, fault, listed, returned,
    ?_, raised, ?_⟩
  · apply served 9 first ?_ compilation returned
    rw [listed]
    exact List.mem_cons_self
  · apply unharmed 9 1 second fault ?_ raised 8 rfl
    rw [listed]
    rfl

end ContractAtlas
