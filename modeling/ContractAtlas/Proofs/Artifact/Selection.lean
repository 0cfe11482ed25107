/-
The source unit of a file path.

Normalised paths are compared by their parts between slashes.  A unit that has
the very path is preferred.  Otherwise a unit is found if one of the two paths
ends in all parts of the other and has further parts before them.  So a file
that is named from the root is not found under a relative path that has the
very same parts.
-/

import Mathlib.Data.List.Find
import ContractAtlas.Artifact.Selection
import ContractAtlas.Proofs.Report.Roots
import ContractAtlas.Proofs.Text.Split

namespace ContractAtlas

namespace Path

/-! ### Parts of paths -/

/-- What stands between the slashes of a text. -/
def between (text : List Char) : List (List Char) :=
  (Text.splitOn '/' text).filter fun part => part ≠ []

/-- The parts of a path once it is normalised. -/
def parts (path : List Char) : List (List Char) :=
  between (normalize path)

/-- The text is a name between slashes. -/
def IsPart (text : List Char) : Prop :=
  text ≠ [] ∧ '/' ∉ text

private theorem between_cons_slash (text : List Char) :
    between ('/' :: text) = between text := by
  rw [between, Text.splitOn, if_pos rfl, List.filter_cons_of_neg (by simp),
    between]

theorem between_replicate_append (count : Nat) (text : List Char) :
    between (List.replicate count '/' ++ text) = between text := by
  induction count with
  | zero => rfl
  | succ count inductionHypothesis =>
      rw [List.replicate_succ, List.cons_append, between_cons_slash,
        inductionHypothesis]

theorem splitOn_intercalate {names : List (List Char)}
    (areParts : ∀ name ∈ names, IsPart name) (given : names ≠ []) :
    Text.splitOn '/' (['/'].intercalate names) = names := by
  rw [Text.splitOn_eq]
  exact List.splitOn_intercalate '/' (fun name member => (areParts name member).2)
    given

private theorem between_intercalate {names : List (List Char)}
    (areParts : ∀ name ∈ names, IsPart name) :
    between (['/'].intercalate names) = names := by
  by_cases given : names = []
  · rw [given]
    rfl
  · rw [between, splitOn_intercalate areParts given, List.filter_eq_self]
    intro name member
    exact decide_eq_true (areParts name member).1

private theorem mem_push {absolute : Bool} {before : List (List Char)}
    {part name : List Char} (member : name ∈ push absolute before part) :
    name ∈ before ∨ name = part ∧ part ≠ [] := by
  unfold push at member
  split at member
  · exact Or.inl member
  · next filled =>
      rw [not_or] at filled
      split at member
      · next isUp =>
          split at member
          · split at member
            · cases member
            · exact Or.inr ⟨(List.mem_singleton.1 member).trans isUp.symm, filled.1⟩
          · split at member
            · rcases List.mem_cons.1 member with same | earlier
              · exact Or.inr ⟨same.trans isUp.symm, filled.1⟩
              · exact Or.inl earlier
            · exact Or.inl (List.mem_cons_of_mem _ member)
      · rcases List.mem_cons.1 member with same | earlier
        · exact Or.inr ⟨same, filled.1⟩
        · exact Or.inl earlier

private theorem isPart_of_mem_components {path name : List Char}
    (member : name ∈ components path) : IsPart name := by
  have kept : ∀ name ∈ (Text.splitOn '/' path).foldl (push (isAbsolute path)) [],
      IsPart name := by
    apply List.foldlRecOn (motive := fun before => ∀ name ∈ before, IsPart name)
    · intro name impossible
      cases impossible
    · intro before areParts part isPiece name member
      rcases mem_push member with earlier | ⟨rfl, filled⟩
      · exact areParts name earlier
      · exact ⟨filled, Text.notMem_of_mem_splitOn isPiece⟩
  exact kept name (List.mem_reverse.1 member)

theorem intercalate_eq_nil {names : List (List Char)}
    (areParts : ∀ name ∈ names, IsPart name)
    (empty : ['/'].intercalate names = []) : names = [] := by
  rw [← between_intercalate areParts, empty]
  rfl

private theorem dropSlashes_intercalate {names : List (List Char)}
    (areParts : ∀ name ∈ names, IsPart name) :
    dropSlashes (['/'].intercalate names) = ['/'].intercalate names := by
  cases names with
  | nil => rfl
  | cons name others =>
      obtain ⟨filled, noSlash⟩ := areParts name List.mem_cons_self
      cases name with
      | nil => exact absurd rfl filled
      | cons c more =>
          have other : c ≠ '/' := fun same => noSlash (same ▸ List.mem_cons_self)
          obtain ⟨rest, starts⟩ : ∃ rest,
              ['/'].intercalate ((c :: more) :: others) = c :: rest := by
            cases others with
            | nil => exact ⟨more, List.intercalate_singleton⟩
            | cons next later => exact ⟨_, List.intercalate_cons_cons⟩
          rw [starts, dropSlashes, List.dropWhile_cons_of_neg]
          exact mt of_decide_eq_true other

/-- A normalised path is put together from its slashes and its names; one that
leads nowhere is a dot. -/
theorem exists_normalize_eq (path : List Char) :
    ∃ names, (∀ name ∈ names, IsPart name) ∧
      (leadingSlashes path = 0 → names ≠ []) ∧
      normalize path =
        List.replicate (leadingSlashes path) '/' ++ ['/'].intercalate names := by
  by_cases nowhere : leadingSlashes path = 0 ∧ components path = []
  · refine ⟨[here], ?_, fun _ => List.cons_ne_nil here [], ?_⟩
    · intro name member
      rw [List.mem_singleton.1 member]
      exact ⟨by decide, by decide⟩
    · rw [normalize, nowhere.1, nowhere.2]
      rfl
  · have areParts : ∀ name ∈ components path, IsPart name :=
      fun _ member => isPart_of_mem_components member
    refine ⟨components path, areParts, not_and.1 nowhere, ?_⟩
    have filled : List.replicate (leadingSlashes path) '/' ++
        ['/'].intercalate (components path) ≠ [] := by
      intro empty
      obtain ⟨noSlash, noName⟩ := List.append_eq_nil_iff.1 empty
      exact nowhere
        ⟨(List.replicate_eq_nil_iff _).1 noSlash, intercalate_eq_nil areParts noName⟩
    exact if_neg (mt List.isEmpty_iff.1 filled)

section

variable (path : List Char)

private theorem parts_spec :
    (∀ part ∈ parts path, IsPart part) ∧
      (leadingSlashes path = 0 → parts path ≠ []) ∧
      normalize path =
        List.replicate (leadingSlashes path) '/' ++
          ['/'].intercalate (parts path) := by
  obtain ⟨names, areParts, given, whole⟩ := exists_normalize_eq path
  have same : parts path = names := by
    rw [parts, whole, between_replicate_append, between_intercalate areParts]
  rw [same]
  exact ⟨areParts, given, whole⟩

private theorem dropSlashes_normalize :
    dropSlashes (normalize path) = ['/'].intercalate (parts path) := by
  obtain ⟨areParts, -, whole⟩ := parts_spec path
  rw [whole, dropSlashes, List.dropWhile_append_of_pos]
  · exact dropSlashes_intercalate areParts
  · intro c member
    exact decide_eq_true (List.eq_of_mem_replicate member)

end

theorem leadingSlashes_eq_zero {path : List Char}
    (relative : isAbsolute path = false) : leadingSlashes path = 0 := by
  unfold leadingSlashes
  split
  · cases relative
  · cases relative
  · cases relative
  · rfl

private theorem normalize_of_relative {path : List Char}
    (relative : isAbsolute path = false) :
    normalize path = ['/'].intercalate (parts path) ∧ parts path ≠ [] := by
  obtain ⟨-, given, whole⟩ := parts_spec path
  rw [leadingSlashes_eq_zero relative] at given whole
  exact ⟨whole, given rfl⟩

/-- A path ends below a slash in another one if its parts come last among the
parts of the other and are not all of them. -/
theorem endsBelow_intercalate {whole ending : List (List Char)}
    (wholeParts : ∀ name ∈ whole, IsPart name)
    (endingParts : ∀ name ∈ ending, IsPart name) (given : ending ≠ []) :
    endsBelow (['/'].intercalate whole) (['/'].intercalate ending) = true ↔
      ending <:+ whole ∧ ending ≠ whole := by
  rw [endsBelow, Text.dropEnding?_isSome_iff]
  have endingSplit := splitOn_intercalate endingParts given
  rw [Text.splitOn_eq] at endingSplit
  constructor
  · rintro ⟨front, cut⟩
    have filled : whole ≠ [] := by
      rintro rfl
      exact absurd cut (by simp)
    have wholeSplit := splitOn_intercalate wholeParts filled
    rw [Text.splitOn_eq, ← cut, List.splitOn_append_cons_self, endingSplit]
      at wholeSplit
    refine ⟨⟨_, wholeSplit⟩, ?_⟩
    intro same
    rw [← same] at wholeSplit
    exact List.splitOn_ne_nil '/' front (List.append_left_eq_self.1 wholeSplit)
  · rintro ⟨⟨before, rfl⟩, differs⟩
    have filled : before ≠ [] := by
      rintro rfl
      exact differs rfl
    have beforeSplit := splitOn_intercalate
      (fun name member => wholeParts name (List.mem_append_left ending member))
      filled
    rw [Text.splitOn_eq] at beforeSplit
    -- Cut at the slashes, the text in question has the parts of the whole.
    have together : ['/'].intercalate
        ((['/'].intercalate before ++ '/' :: ['/'].intercalate ending).splitOn
          '/') =
        ['/'].intercalate before ++ '/' :: ['/'].intercalate ending :=
      List.intercalate_splitOn '/'
    rw [List.splitOn_append_cons_self, beforeSplit, endingSplit] at together
    exact ⟨['/'].intercalate before, together.symm⟩

end Path

/-! ### Units and files -/

namespace SourceUnit

/-- The path of a unit, empty if it is no text. -/
def path (unit : SourceUnit) : List Char :=
  (unit.root.textOr "absolutePath" "").plainText.toList

/-- The path of the unit is text and does not start at the root. -/
structure IsRelative (unit : SourceUnit) : Prop where
  isText : (unit.root.textOr "absolutePath" "").IsText
  relative : Path.isAbsolute unit.path = false

theorem IsRelative.unitPath {unit : SourceUnit} (relative : unit.IsRelative) :
    Selection.unitPath unit = .ok (Path.normalize unit.path) := by
  obtain ⟨text, isText⟩ := relative.isText
  rw [Selection.unitPath, path, isText]
  rfl

end SourceUnit

namespace Selection

private theorem firstUnit_eq {units : List SourceUnit}
    (relative : ∀ unit ∈ units, unit.IsRelative) (test : List Char → Bool) :
    firstUnit test units =
      .ok (units.find? fun unit => test (Path.normalize unit.path)) := by
  induction units with
  | nil => rfl
  | cons unit rest inductionHypothesis =>
      obtain ⟨own, later⟩ := List.forall_mem_cons.1 relative
      rw [firstUnit, own.unitPath, List.find?_cons]
      simp only [inductionHypothesis later]
      cases test (Path.normalize unit.path) with
      | true => rfl
      | false => rfl

private theorem firstOfTests_eq {units : List SourceUnit}
    (relative : ∀ unit ∈ units, unit.IsRelative)
    (tests : List (List Char → Bool)) :
    firstOfTests units tests =
      .ok (tests.findSome? fun test =>
        units.find? fun unit => test (Path.normalize unit.path)) := by
  induction tests with
  | nil => rfl
  | cons test rest inductionHypothesis =>
      rw [firstOfTests, firstUnit_eq relative, List.findSome?_cons]
      simp only [inductionHypothesis]
      cases units.find? fun unit => test (Path.normalize unit.path) with
      | some unit => rfl
      | none => rfl

/-- The unit has the very path of the file. -/
def IsAt (file : List Char) (unit : SourceUnit) : Prop :=
  Path.normalize unit.path = Path.normalize file

/-- The parts of one of the paths, of the unit's and the file's, come last in
the other. -/
def Trails (file : List Char) (unit : SourceUnit) : Prop :=
  Path.parts unit.path <:+ Path.parts file ∨
    Path.parts file <:+ Path.parts unit.path

/-- The unit has the parts of the file, whether or not both start at the
root. -/
def HasParts (file : List Char) (unit : SourceUnit) : Prop :=
  Path.parts unit.path = Path.parts file

instance (file : List Char) (unit : SourceUnit) : Decidable (IsAt file unit) :=
  inferInstanceAs (Decidable (_ = _))

instance (file : List Char) (unit : SourceUnit) :
    Decidable (Trails file unit) :=
  inferInstanceAs (Decidable (_ ∨ _))

instance (file : List Char) (unit : SourceUnit) :
    Decidable (HasParts file unit) :=
  inferInstanceAs (Decidable (_ = _))

/-- A unit is found at the end of a file's path, or the other way round, if it
trails and has not just the parts of the file. -/
theorem isTrailing_iff {file : List Char} {unit : SourceUnit}
    (relative : unit.IsRelative) (named : Path.parts file ≠ []) :
    isTrailing file (Path.normalize unit.path) = true ↔
      Trails file unit ∧ ¬ HasParts file unit := by
  have fileParts := (Path.parts_spec file).1
  have unitParts := (Path.parts_spec unit.path).1
  obtain ⟨whole, given⟩ := Path.normalize_of_relative relative.relative
  rw [isTrailing, Path.dropSlashes_normalize, whole, Bool.or_eq_true,
    Path.endsBelow_intercalate unitParts fileParts named,
    Path.endsBelow_intercalate fileParts unitParts given, Trails, HasParts]
  constructor
  · rintro (⟨ends, differs⟩ | ⟨ends, differs⟩)
    · exact ⟨Or.inr ends, Ne.symm differs⟩
    · exact ⟨Or.inl ends, differs⟩
  · rintro ⟨ends | ends, differs⟩
    · exact Or.inr ⟨ends, differs⟩
    · exact Or.inl ⟨ends, Ne.symm differs⟩

/-- Two relative paths with the same parts are one path. -/
theorem isAt_of_hasParts {file : List Char} {unit : SourceUnit}
    (relative : unit.IsRelative) (fileRelative : Path.isAbsolute file = false)
    (same : HasParts file unit) : IsAt file unit := by
  rw [IsAt, (Path.normalize_of_relative relative.relative).1, same,
    (Path.normalize_of_relative fileRelative).1]

/-- The unit that the parts of the paths call for: the first with the very path
of the file or else the first that trails. -/
def matching? (file : List Char) (units : List SourceUnit) :
    Option SourceUnit :=
  (units.find? (IsAt file)).or (units.find? (Trails file))

/-- The unit that is taken: one that has just the parts of the file does not
count as trailing. -/
def taken? (file : List Char) (units : List SourceUnit) : Option SourceUnit :=
  (units.find? (IsAt file)).or
    (units.find? fun unit => Trails file unit ∧ ¬ HasParts file unit)

/-- The outcome of a search for the unit of a file. -/
def outcome (file : String) (found : Option SourceUnit) :
    Except Fault SourceUnit :=
  found.elim (.error (.noMatchingUnit file)) .ok

private theorem outcome_inj {file : String} {left right : Option SourceUnit} :
    outcome file left = outcome file right ↔ left = right := by
  constructor
  · intro same
    cases left with
    | none =>
        cases right with
        | none => rfl
        | some unit => cases same
    | some unit =>
        cases right with
        | none => cases same
        | some other =>
            cases same
            rfl
  · intro same
    rw [same]

private theorem select_eq_outcome {units : List SourceUnit}
    (relative : ∀ unit ∈ units, unit.IsRelative) (working : List Char)
    {file : String} (named : Path.parts file.toList ≠ []) :
    select working units file none =
      outcome file (taken? file.toList units) := by
  have exact : (units.find? fun unit =>
      Path.normalize unit.path == Path.normalize file.toList) =
      units.find? (IsAt file.toList) := by
    apply List.find?_congr
    intro unit _
    rw [Bool.eq_iff_iff, beq_iff_eq, decide_eq_true_iff, IsAt]
  have trailing : (units.find? fun unit =>
      isTrailing file.toList (Path.normalize unit.path)) =
      units.find? fun unit =>
        Trails file.toList unit ∧ ¬ HasParts file.toList unit := by
    apply List.find?_congr
    intro unit member
    rw [Bool.eq_iff_iff, isTrailing_iff (relative unit member) named,
      decide_eq_true_iff]
  have found : (tests working file.toList none).findSome? (fun test =>
      units.find? fun unit => test (Path.normalize unit.path)) =
      taken? file.toList units := by
    rw [taken?, ← exact, ← trailing]
    show List.findSome? _ [_, _] = _
    rw [List.findSome?_cons, List.findSome?_cons, List.findSome?_nil]
    cases units.find? fun unit =>
        Path.normalize unit.path == Path.normalize file.toList with
    | some unit => rfl
    | none =>
        cases units.find? fun unit =>
            isTrailing file.toList (Path.normalize unit.path) with
        | some unit => rfl
        | none => rfl
  rw [select, Option.map_none, firstOfTests_eq relative, found]
  cases taken? file.toList units with
  | some unit => rfl
  | none => rfl

/-- The unit of the same parts is passed over, and only then does the choice
differ from what the parts call for. -/
theorem taken?_eq_matching?_iff {file : List Char} {units : List SourceUnit} :
    taken? file units = matching? file units ↔
      ∀ unit, units.find? (IsAt file) = none →
        units.find? (Trails file) = some unit → ¬ HasParts file unit := by
  rw [taken?, matching?]
  cases units.find? (IsAt file) with
  | some unit => simp
  | none =>
      simp only [Option.none_or, true_implies]
      constructor
      · intro same unit first sameParts
        rw [first] at same
        have kept := List.find?_some same
        exact (of_decide_eq_true kept).2 sameParts
      · intro differs
        cases first : units.find? (Trails file) with
        | none =>
            rw [List.find?_eq_none] at first ⊢
            intro unit member both
            exact first unit member (decide_eq_true (of_decide_eq_true both).1)
        | some unit =>
            obtain ⟨trails, before, after, rfl, none⟩ :=
              List.find?_eq_some_iff_append.1 first
            rw [List.find?_eq_some_iff_append]
            refine ⟨decide_eq_true
              ⟨of_decide_eq_true trails, differs unit first⟩, before, after, rfl, ?_⟩
            intro other member
            have apart := none other member
            rw [Bool.not_eq_true', decide_eq_false_iff_not] at apart ⊢
            exact fun both => apart both.1

/-- A file is looked up among units with relative paths: the first unit with
the very path is taken or else the first of which one path ends in the parts of
the other and has more of them, and if there is none, no unit matches.  This is
what the parts call for unless the first unit that trails has just the parts of
the file, which happens only to files that start at the root. -/
theorem select_passes_over_same_parts {units : List SourceUnit}
    (relative : ∀ unit ∈ units, unit.IsRelative) (working : List Char)
    {file : String} (named : Path.parts file.toList ≠ []) :
    select working units file none = outcome file (taken? file.toList units) ∧
      (select working units file none =
          outcome file (matching? file.toList units) ↔
        ∀ unit, units.find? (IsAt file.toList) = none →
          units.find? (Trails file.toList) = some unit →
          ¬ HasParts file.toList unit) ∧
      (Path.isAbsolute file.toList = false →
        select working units file none =
          outcome file (matching? file.toList units)) := by
  have selected := select_eq_outcome relative working named
  have exactly : select working units file none =
      outcome file (matching? file.toList units) ↔
        ∀ unit, units.find? (IsAt file.toList) = none →
          units.find? (Trails file.toList) = some unit →
          ¬ HasParts file.toList unit := by
    rw [selected, outcome_inj, taken?_eq_matching?_iff]
  refine ⟨selected, exactly, ?_⟩
  intro fileRelative
  rw [exactly]
  intro unit absent first sameParts
  have member := List.mem_of_find?_eq_some first
  apply List.find?_eq_none.1 absent unit member
  exact decide_eq_true
    (isAt_of_hasParts (relative unit member) fileRelative sameParts)

/-! ### Units of tokens -/

def unitSample (id : Nat) (path : String) : String × Sample :=
  (path, .unit id (.str path) [])

def unitAt (id : Nat) (path : String) : SourceUnit where
  root := (unitSample id path).2.node none "" false
  content := ""

private theorem isRelative_unitAt (id : Nat) {path : String}
    (relative : Path.isAbsolute path.toList = false) :
    (unitAt id path).IsRelative :=
  ⟨⟨path, rfl⟩, relative⟩

def tokenFiles : List (String × Sample) :=
  [unitSample 0 "lib/src/Token.sol", unitSample 1 "src/Token.sol"]

private theorem read_tokenFiles :
    (Reading.read (Sample.file tokenFiles)).outcome =
      .ok (Sample.compilation tokenFiles) :=
  (rfl)

/-- The second unit has the path of the file, and the first one only ends in
it. -/
theorem select_prefers_very_path :
    ∃ compilation,
      (Reading.read (Sample.file tokenFiles)).outcome = .ok compilation ∧
      (∀ unit ∈ compilation.units, unit.IsRelative) ∧
      Path.parts "./src//Token.sol".toList ≠ [] ∧
      compilation.units.find? (Trails "./src//Token.sol".toList) =
        some (unitAt 0 "lib/src/Token.sol") ∧
      select [] compilation.units "./src//Token.sol" none =
        .ok (unitAt 1 "src/Token.sol") := by
  have relative : ∀ unit ∈ (Sample.compilation tokenFiles).units,
      unit.IsRelative :=
    List.forall_mem_cons.2 ⟨isRelative_unitAt 0 (by decide),
      List.forall_mem_singleton.2 (isRelative_unitAt 1 (by decide))⟩
  have named : Path.parts "./src//Token.sol".toList ≠ [] := by decide +kernel
  refine ⟨_, read_tokenFiles, relative, named, by rfl, ?_⟩
  rw [(select_passes_over_same_parts relative [] named).1]
  rfl

private theorem read_tokenFile :
    (Reading.read (Sample.file [unitSample 0 "src/Token.sol"])).outcome =
      .ok (Sample.compilation [unitSample 0 "src/Token.sol"]) :=
  (rfl)

/-- The parts of both paths are the same, but the file starts at the root, and
no unit matches. -/
theorem select_misses_file_at_root :
    ∃ compilation,
      (Reading.read (Sample.file [unitSample 0 "src/Token.sol"])).outcome =
        .ok compilation ∧
      (∀ unit ∈ compilation.units, unit.IsRelative) ∧
      Path.parts "/src/Token.sol".toList ≠ [] ∧
      matching? "/src/Token.sol".toList compilation.units =
        some (unitAt 0 "src/Token.sol") ∧
      select [] compilation.units "/src/Token.sol" none =
        .error (.noMatchingUnit "/src/Token.sol") :=
  ⟨_, read_tokenFile,
    List.forall_mem_singleton.2 (isRelative_unitAt 0 (by decide)),
    by decide +kernel, by rfl, by rfl⟩

end Selection

end ContractAtlas
