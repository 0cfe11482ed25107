/-
When a contract can be laid out.

Collecting goes through the state variables in order and stops at the first one
that cannot be described: a constant whose source text cannot be cut out, or a
variable that is not well sized.  What is collected can always be packed.  The
slots can be numbered unless some array length has too many digits, and then the
fault is that of the first such leaf field.
-/

import ContractAtlas.Proofs.Storage.Leaves

namespace ContractAtlas

namespace Storage

/-! ### Numbering packed members -/

private theorem lengthFault?_eq_findSome? {group : SlotGroup}
    (fits : Fits group)
    (fills : ∀ member ∈ group, member.ArrayFillsSlot) :
    lengthFault? group = group.findSome? Member.dimensionFault? := by
  match group with
  | [] => rfl
  | [member] =>
      rw [List.findSome?_cons, lengthFault?]
      show member.dimensionFault? = _
      cases member.dimensionFault? <;> rfl
  | first :: second :: rest =>
      -- A member of a shared group is no array, so its length is no concern.
      have readable : ∀ member ∈ first :: second :: rest,
          member.dimensionFault? = none := by
        intro member found
        cases faulty : member.dimensionFault? with
        | none => rfl
        | some fault =>
            have full := fills member found
              (TypeName.isArray_of_dimensionFault? faulty)
            have alone := congrArg List.length (fits.eq_singleton found full)
            simp at alone
      rw [lengthFault?, List.findSome?_eq_none_iff.2 readable]
      intro member impossible
      cases impossible

private theorem findSome?_lengthFault? {groups : List SlotGroup}
    (fits : ∀ group ∈ groups, Fits group)
    (fills : ∀ group ∈ groups, ∀ member ∈ group, member.ArrayFillsSlot) :
    groups.findSome? lengthFault? =
      groups.flatten.findSome? Member.dimensionFault? := by
  induction groups with
  | nil => rfl
  | cons group rest inductionHypothesis =>
      rw [List.flatten_cons, List.findSome?_append, List.findSome?_cons,
        lengthFault?_eq_findSome? (fits group List.mem_cons_self)
          (fills group List.mem_cons_self),
        inductionHypothesis
          (fun other later => fits other (List.mem_cons_of_mem group later))
          (fun other later => fills other (List.mem_cons_of_mem group later))]
      cases group.findSome? Member.dimensionFault? <;> rfl

private theorem findSome?_withoutOffsets (members : List Member) :
    (withoutOffsets members).findSome? Member.dimensionFault? =
      members.findSome? Member.dimensionFault? := by
  rw [withoutOffsets, List.findSome?_map]
  congr 1
  funext member
  simp only [Function.comp_apply, Member.dimensionFault?, Member.type_withOffset]

theorem exists_pack {members : List Member}
    (valid : ∀ leaf ∈ Member.leavesOfAll members, leaf.HasValidSize) :
    ∃ groups, pack members = .ok groups := by
  have described := packedAs_pack members
  cases outcome : pack members with
  | ok groups => exact ⟨groups, rfl⟩
  | error fault =>
      rw [outcome] at described
      cases described with
      | stopped before bad after split _ invalid =>
          apply absurd _ invalid
          apply valid
          rw [split]
          exact List.mem_append_right before List.mem_cons_self

/-- Members with valid sizes can be laid out unless some length cannot be
read. -/
theorem layOut_outcome {members : List Member}
    (valid : ∀ leaf ∈ Member.leavesOfAll members, leaf.HasValidSize)
    (fills : ∀ leaf ∈ Member.leavesOfAll members, leaf.ArrayFillsSlot) :
    match (Member.leavesOfAll members).findSome? Member.dimensionFault? with
    | some fault => layOut members = .error fault
    | none => ∃ layout, layOut members = .ok layout := by
  obtain ⟨groups, packed⟩ := exists_pack valid
  have described := packedAs_pack members
  rw [packed] at described
  cases described with
  | placed _ _ fits same =>
      have allFit : ∀ group ∈ groups, Fits group :=
        fun group found => (fits group found).2
      have placedFills := arrayFillsSlot_of_placed same fills
      have sameFault : groups.findSome? lengthFault? =
          (Member.leavesOfAll members).findSome? Member.dimensionFault? := by
        rw [findSome?_lengthFault? allFit placedFills,
          ← findSome?_withoutOffsets groups.flatten, same,
          findSome?_withoutOffsets]
      rw [← sameFault]
      simp only [layOut, packed, number]
      cases groups.findSome? lengthFault? with
      | none => exact ⟨_, rfl⟩
      | some fault => rfl

end Storage

namespace Compilation

variable {compilation : Compilation} {flatten : Bool}

/-! ### Constants -/

/-- The source text of a declaration can be cut out: its unit has no content, or
its location is not given or is text. -/
def Excerptable (compilation : Compilation) (declaration : Node) : Prop :=
  ∀ unit, compilation.unitOf? declaration = some unit →
    compilation.contentOf unit = "" ∨ declaration.src.isGiven = false ∨
      ∃ location, declaration.src = .str location

private theorem exists_textAt_iff {content : String} {src : Json} :
    (∃ text, Excerpt.textAt content src = .ok text) ↔
      content = "" ∨ src.isGiven = false ∨ ∃ location, src = .str location := by
  unfold Excerpt.textAt
  by_cases skipped : content.isEmpty || !src.isGiven
  · rw [if_pos skipped]
    simp only [Bool.or_eq_true, Bool.not_eq_true', String.isEmpty_iff] at skipped
    constructor
    · intro _
      rcases skipped with empty | missing
      · exact Or.inl empty
      · exact Or.inr (Or.inl missing)
    · intro _
      exact ⟨"", rfl⟩
  · rw [if_neg skipped]
    simp only [Bool.or_eq_true, Bool.not_eq_true', String.isEmpty_iff, not_or]
      at skipped
    cases src with
    | str location =>
        constructor
        · intro _
          exact Or.inr (Or.inr ⟨location, rfl⟩)
        · intro _
          dsimp only
          cases Excerpt.span? location.toList with
          | none => exact ⟨"", rfl⟩
          | some span => exact ⟨_, rfl⟩
    | null | bool | int | real | arr | obj =>
        constructor
        · rintro ⟨text, impossible⟩
          cases impossible
        · rintro (empty | missing | ⟨location, impossible⟩)
          · exact absurd empty skipped.1
          · exact absurd missing skipped.2
          · cases impossible

private theorem exists_sourceText_iff {declaration : Node} :
    (∃ text, compilation.sourceText declaration = .ok text) ↔
      compilation.Excerptable declaration := by
  unfold sourceText Excerptable
  cases compilation.unitOf? declaration with
  | none => simp
  | some unit =>
      simp only [Option.some.injEq, forall_eq']
      exact exists_textAt_iff

private theorem exists_constantOf_iff {declaration : Node} :
    (∃ constant, compilation.constantOf declaration = .ok constant) ↔
      (∃ type, declaration.typeStringOrEmpty = .ok type) ∧
        compilation.Excerptable declaration := by
  rw [← exists_sourceText_iff]
  constructor
  · rintro ⟨constant, succeeds⟩
    obtain ⟨type, typed, succeeds⟩ := exists_of_bind_eq_ok succeeds
    obtain ⟨text, excerpt, -⟩ := exists_of_bind_eq_ok succeeds
    exact ⟨⟨type, typed⟩, ⟨text, excerpt⟩⟩
  · rintro ⟨⟨type, typed⟩, ⟨text, excerpt⟩⟩
    rw [constantOf, typed]
    show ∃ constant, (compilation.sourceText declaration >>= _) = .ok constant
    rw [excerpt]
    exact ⟨_, rfl⟩

/-! ### Variables in their order -/

/-- A state variable that can be described. -/
def Describable (compilation : Compilation) (declaration : Node) : Prop :=
  if declaration.isStorageFree then
    (∃ type, declaration.typeStringOrEmpty = .ok type) ∧
      compilation.Excerptable declaration
  else WellSized compilation [] declaration

/-- The fault of a state variable that cannot be described. -/
def FailsWith (compilation : Compilation) (declaration : Node)
    (fault : Fault) : Prop :=
  if declaration.isStorageFree then
    compilation.constantOf declaration = .error fault
  else FirstFault compilation [] [declaration] fault

/-- The members and constants of a single state variable. -/
def contributionOf (compilation : Compilation) (flatten : Bool)
    (declaration : Node) : Except Fault (List Member × List Constant) :=
  if declaration.isStorageFree then
    (compilation.constantOf declaration).map fun constant => ([], [constant])
  else
    (compilation.membersOf flatten none [] [declaration]).map fun own =>
      (own, [])

theorem collectFrom_cons (flatten : Bool) (declaration : Node)
    (rest : List Node) :
    compilation.collectFrom flatten (declaration :: rest) =
      (compilation.contributionOf flatten declaration).bind fun own =>
        (compilation.collectFrom flatten rest).map fun others =>
          (own.1 ++ others.1, own.2 ++ others.2) := by
  rw [collectFrom, contributionOf]
  split
  · cases compilation.constantOf declaration with
    | error fault => rfl
    | ok constant =>
        cases compilation.collectFrom flatten rest with
        | error fault => rfl
        | ok others => rfl
  · cases compilation.membersOf flatten none [] [declaration] with
    | error fault => rfl
    | ok own =>
        cases compilation.collectFrom flatten rest with
        | error fault => rfl
        | ok others => rfl

private theorem exists_contributionOf_iff {declaration : Node} :
    (∃ own, compilation.contributionOf flatten declaration = .ok own) ↔
      compilation.Describable declaration := by
  unfold contributionOf Describable
  by_cases free : declaration.isStorageFree = true
  · rw [if_pos free, if_pos free, ← exists_constantOf_iff]
    cases compilation.constantOf declaration with
    | error fault => simp [Except.map]
    | ok constant => simp [Except.map]
  · rw [if_neg free, if_neg free]
    have sized :
        (∃ members, compilation.membersOf flatten none [] [declaration] =
            .ok members) ↔
          ∀ other ∈ [declaration], WellSized compilation [] other :=
      exists_membersOf_iff
    rw [List.forall_mem_singleton] at sized
    rw [← sized]
    cases compilation.membersOf flatten none [] [declaration] with
    | error fault => simp [Except.map]
    | ok own => simp [Except.map]

private theorem contributionOf_eq_error_iff {declaration : Node}
    {fault : Fault} :
    compilation.contributionOf flatten declaration = .error fault ↔
      compilation.FailsWith declaration fault := by
  unfold contributionOf FailsWith
  by_cases free : declaration.isStorageFree = true
  · rw [if_pos free, if_pos free]
    cases compilation.constantOf declaration with
    | error other => simp [Except.map]
    | ok constant => simp [Except.map]
  · have stops :
        compilation.membersOf flatten none [] [declaration] = .error fault ↔
          FirstFault compilation [] [declaration] fault :=
      membersOf_eq_error_iff
    rw [if_neg free, if_neg free, ← stops]
    cases compilation.membersOf flatten none [] [declaration] with
    | error other => simp [Except.map]
    | ok own => simp [Except.map]

theorem exists_collectFrom_iff {declarations : List Node} :
    (∃ result, compilation.collectFrom flatten declarations = .ok result) ↔
      ∀ declaration ∈ declarations, compilation.Describable declaration := by
  induction declarations with
  | nil =>
      constructor
      · intro _ declaration impossible
        cases impossible
      · intro _
        exact ⟨([], []), rfl⟩
  | cons declaration rest inductionHypothesis =>
      have first : (∃ own, compilation.contributionOf flatten declaration =
          .ok own) ↔ compilation.Describable declaration :=
        exists_contributionOf_iff
      rw [List.forall_mem_cons, ← first, ← inductionHypothesis, collectFrom_cons]
      cases compilation.contributionOf flatten declaration with
      | error fault => simp [Except.bind]
      | ok own =>
          cases compilation.collectFrom flatten rest with
          | error fault => simp [Except.bind, Except.map]
          | ok others => simp [Except.bind, Except.map]

private theorem collectFrom_cons_eq_error_iff {declaration : Node}
    {rest : List Node}
    {fault : Fault} :
    compilation.collectFrom flatten (declaration :: rest) = .error fault ↔
      compilation.FailsWith declaration fault ∨
        compilation.Describable declaration ∧
          compilation.collectFrom flatten rest = .error fault := by
  have fails : compilation.contributionOf flatten declaration = .error fault ↔
      compilation.FailsWith declaration fault :=
    contributionOf_eq_error_iff
  have describes : (∃ own, compilation.contributionOf flatten declaration =
      .ok own) ↔ compilation.Describable declaration :=
    exists_contributionOf_iff
  rw [collectFrom_cons, ← fails, ← describes]
  cases compilation.contributionOf flatten declaration with
  | error other => simp [Except.bind]
  | ok own =>
      cases compilation.collectFrom flatten rest with
      | error other => simp [Except.bind, Except.map]
      | ok others => simp [Except.bind, Except.map]

/-- The first element with a property lies at the front or behind it. -/
theorem exists_split_cons_iff {α : Type} (passes stops : α → Prop)
    {first : α} {rest : List α} :
    (∃ before element after, first :: rest = before ++ element :: after ∧
        (∀ earlier ∈ before, passes earlier) ∧ stops element) ↔
      stops first ∨ passes first ∧
        ∃ before element after, rest = before ++ element :: after ∧
          (∀ earlier ∈ before, passes earlier) ∧ stops element := by
  constructor
  · rintro ⟨before, element, after, split, passed, stopped⟩
    cases before with
    | nil =>
        cases split
        exact Or.inl stopped
    | cons head more =>
        cases split
        rw [List.forall_mem_cons] at passed
        exact Or.inr ⟨passed.1, more, element, after, rfl, passed.2, stopped⟩
  · rintro (stopped | ⟨passed, before, element, after, rfl, earlier, stopped⟩)
    · refine ⟨[], first, rest, rfl, ?_, stopped⟩
      intro earlier impossible
      cases impossible
    · refine ⟨first :: before, element, after, rfl, ?_, stopped⟩
      rw [List.forall_mem_cons]
      exact ⟨passed, earlier⟩

/-- Collecting stops at the first variable that cannot be described. -/
theorem collectFrom_eq_error_iff {declarations : List Node} {fault : Fault} :
    compilation.collectFrom flatten declarations = .error fault ↔
      ∃ before declaration after,
        declarations = before ++ declaration :: after ∧
          (∀ earlier ∈ before, compilation.Describable earlier) ∧
          compilation.FailsWith declaration fault := by
  induction declarations with
  | nil =>
      constructor
      · intro impossible
        cases impossible
      · rintro ⟨before, declaration, after, impossible, -⟩
        cases before <;> cases impossible
  | cons declaration rest inductionHypothesis =>
      rw [collectFrom_cons_eq_error_iff, inductionHypothesis]
      exact (exists_split_cons_iff compilation.Describable
        (compilation.FailsWith · fault)).symm

/-! ### Layouts -/

private theorem exists_pack_of_collect {contract : Node} {members : List Member}
    {constants : List Constant}
    (collected :
      compilation.collect flatten contract = .ok (members, constants)) :
    ∃ groups, Storage.pack members = .ok groups :=
  Storage.exists_pack
    ((gathered_of_collectFrom collected).forall_leaves
      holdsOfLeaves_hasValidSize)

/-- A layout fails where collecting fails, and otherwise where a length cannot
be read. -/
theorem layout_outcome (compilation : Compilation) (flatten : Bool)
    (contract : Node) :
    match compilation.collect flatten contract with
    | .error fault => compilation.layout flatten contract = .error fault
    | .ok _ =>
        match (compilation.storageLeaves
          (compilation.stateVariables contract)).findSome?
            fun leaf => dimensionFaultOf leaf.1 with
        | some fault => compilation.layout flatten contract = .error fault
        | none => ∃ layout, compilation.layout flatten contract = .ok layout := by
  cases collected : compilation.collect flatten contract with
  | error fault =>
      simp only [layout, collected]
      rfl
  | ok result =>
      obtain ⟨members, constants⟩ := result
      have gathered := gathered_of_collectFrom collected
      have outcome :=
        Storage.layOut_outcome
          (gathered.forall_leaves holdsOfLeaves_hasValidSize)
          (gathered.forall_leaves holdsOfLeaves_arrayFillsSlot)
      rw [gathered.findSome?_leaves] at outcome
      have laidOut : compilation.layout flatten contract =
          (Storage.layOut members).map fun layout =>
            { layout with constants := constants } := by
        simp only [layout, collected]
        show (Storage.layOut members >>= _) = _
        cases Storage.layOut members <;> rfl
      rw [laidOut]
      dsimp only
      cases faulty : (compilation.storageLeaves
          (compilation.stateVariables contract)).findSome?
            fun leaf => dimensionFaultOf leaf.1 with
      | some fault =>
          rw [faulty] at outcome
          dsimp only at outcome ⊢
          rw [outcome]
          rfl
      | none =>
          rw [faulty] at outcome
          obtain ⟨numbered, found⟩ := outcome
          rw [found]
          exact ⟨_, rfl⟩

theorem layout_eq_error_iff {contract : Node} {fault : Fault} :
    compilation.layout flatten contract = .error fault ↔
      compilation.collect flatten contract = .error fault ∨
        (∃ result, compilation.collect flatten contract = .ok result) ∧
          ((compilation.storageLeaves
            (compilation.stateVariables contract)).findSome?
              fun leaf => dimensionFaultOf leaf.1) = some fault := by
  have outcome := compilation.layout_outcome flatten contract
  cases collected : compilation.collect flatten contract with
  | error other =>
      rw [collected] at outcome
      simp [outcome]
  | ok result =>
      rw [collected] at outcome
      dsimp only at outcome
      split at outcome
      · rename_i other faulty
        simp [outcome, faulty]
      · rename_i readable
        obtain ⟨layout, found⟩ := outcome
        simp [found, readable]

private theorem exists_layout_iff {contract : Node} :
    (∃ layout, compilation.layout flatten contract = .ok layout) ↔
      (∃ result, compilation.collect flatten contract = .ok result) ∧
        ((compilation.storageLeaves
          (compilation.stateVariables contract)).findSome?
            fun leaf => dimensionFaultOf leaf.1) = none := by
  have outcome := compilation.layout_outcome flatten contract
  cases collected : compilation.collect flatten contract with
  | error other =>
      rw [collected] at outcome
      simp [outcome]
  | ok result =>
      rw [collected] at outcome
      dsimp only at outcome
      split at outcome
      · rename_i other faulty
        simp [outcome, faulty]
      · rename_i readable
        simp [outcome, readable]

/-- A contract can be laid out exactly if its constants can be described, its
variables are well sized and the array length of every leaf field can be read.
Only the static dimensions outside of every dynamic one count for that length,
and none of a mapping.  Otherwise the fault is that of the first variable or
field that is not so, and if there is none, that of the first array length.
What is collected can always be packed.  With flattening the members are the
leaf fields in their order, and those inside a struct variable have the type and
the name of that variable as their parent. -/
theorem layout_succeeds_or_names_first_fault (compilation : Compilation)
    (flatten : Bool) (contract : Node) :
    ((∃ layout, compilation.layout flatten contract = .ok layout) ↔
        (∀ declaration ∈ compilation.stateVariables contract,
            compilation.Describable declaration) ∧
          ∀ leaf ∈ compilation.storageLeaves
              (compilation.stateVariables contract),
            dimensionFaultOf leaf.1 = none) ∧
      (∀ fault, compilation.layout flatten contract = .error fault ↔
        (∃ before declaration after,
          compilation.stateVariables contract =
              before ++ declaration :: after ∧
            (∀ earlier ∈ before, compilation.Describable earlier) ∧
            compilation.FailsWith declaration fault) ∨
          (∀ declaration ∈ compilation.stateVariables contract,
              compilation.Describable declaration) ∧
            ((compilation.storageLeaves
              (compilation.stateVariables contract)).findSome?
                fun leaf => dimensionFaultOf leaf.1) = some fault) ∧
      ∀ members constants,
        compilation.collect flatten contract = .ok (members, constants) →
          (∃ groups, Storage.pack members = .ok groups) ∧
          (flatten = true →
            List.Forall₂
              (fun member leaf =>
                compilation.IsLeafMember member leaf.1 leaf.2)
              members
              (compilation.storageLeaves
                (compilation.stateVariables contract))) := by
  have collects : (∃ result, compilation.collect flatten contract =
      .ok result) ↔ ∀ declaration ∈ compilation.stateVariables contract,
        compilation.Describable declaration :=
    exists_collectFrom_iff
  have stops : ∀ fault, compilation.collect flatten contract = .error fault ↔
      ∃ before declaration after,
        compilation.stateVariables contract = before ++ declaration :: after ∧
          (∀ earlier ∈ before, compilation.Describable earlier) ∧
          compilation.FailsWith declaration fault :=
    fun _ => collectFrom_eq_error_iff
  simp only [← collects, ← stops, ← List.findSome?_eq_none_iff]
  refine ⟨exists_layout_iff, fun _ => layout_eq_error_iff, ?_⟩
  intro members constants collected
  refine ⟨exists_pack_of_collect collected, ?_⟩
  rintro rfl
  exact (gathered_of_collectFrom collected).leafMembers

/-! ### Well sized variables whose contract cannot be laid out -/

def wordText : List Char :=
  ['u', 'i', 'n', 't', '2', '5', '6']

/-- The type of an array of words with these digits as its length. -/
def wordsType (digits : List Char) : String :=
  String.ofList (wordText ++ TypeName.bracketed digits)

theorem normalize_wordsType (digits : List Char) :
    TypeName.normalize (wordsType digits).toList =
      wordText ++ TypeName.bracketed digits := by
  rw [wordsType, String.toList_ofList]
  exact TypeName.normalize_bracketed (by decide)
    ['i', 'n', 't', '2', '5', '6'] digits

private theorem isArray_wordsType (digits : List Char) :
    TypeName.isArray (wordsType digits).toList = true := by
  have closing : [']'] <:+ wordText ++ TypeName.bracketed digits :=
    ⟨wordText ++ '[' :: digits, by simp [TypeName.bracketed]⟩
  simp only [TypeName.isArray, normalize_wordsType,
    (TypeName.endsWith_iff _ _).2 closing, Bool.and_true]
  rfl

private theorem isStruct_wordsType (digits : List Char) :
    TypeName.isStruct (wordsType digits).toList = false := by
  simp only [TypeName.isStruct, normalize_wordsType]
  rfl

private theorem variableType_wordsType (digits : List Char) :
    variableType (stateVariable 2 1 "table" (wordsType digits)) =
      .ok (wordsType digits) := by
  have given : (Json.str (wordsType digits)).isGiven = true := by
    rw [Json.isGiven, Bool.not_eq_true', Bool.eq_false_iff]
    intro empty
    have noText := congrArg String.toList (String.isEmpty_iff.1 empty)
    rw [wordsType, String.toList_ofList] at noText
    cases noText
  have text : (stateVariable 2 1 "table" (wordsType digits)).typeString =
      .ok (.str (wordsType digits)) := rfl
  have textOrEmpty :
      (stateVariable 2 1 "table" (wordsType digits)).typeStringOrEmpty =
        .ok (.str (wordsType digits)) := by
    rw [Node.typeStringOrEmpty, text]
    show Except.ok ((Json.str (wordsType digits)).givenOr (.str "")) = _
    rw [Json.givenOr, if_pos given]
  rw [variableType, textOrEmpty]

/-- An array of words whose length has too many digits is well sized, but its
contract cannot be laid out. -/
theorem layout_wordsType {digits : List Char}
    (allDigits : ∀ c ∈ digits, Text.isDigit c = true)
    (long : Text.decimalLimit < digits.length) :
    WellSized (withTable (wordsType digits)) []
        (stateVariable 2 1 "table" (wordsType digits)) ∧
      (withTable (wordsType digits)).layout true
          (tableContract (wordsType digits)) =
        .error (.numberTooLong digits.length) := by
  have typed := variableType_wordsType digits
  have plain := isStruct_wordsType digits
  have sized : (withTable (wordsType digits)).scalarWidth
      (stateVariable 2 1 "table" (wordsType digits)) (wordsType digits) =
        .ok TypeName.slotSize :=
    scalarWidth_of_isArray (isArray_wordsType digits)
  refine ⟨.scalar typed plain sized, ?_⟩
  have faulty : dimensionFaultOf
      (stateVariable 2 1 "table" (wordsType digits)) =
        some (.numberTooLong digits.length) := by
    rw [dimensionFaultOf, typed]
    exact TypeName.dimensionFault?_of_overlong (normalize_wordsType digits) rfl
      allDigits long
  have outcome := (withTable (wordsType digits)).layout_outcome true
    (tableContract (wordsType digits))
  have ordered : (withTable (wordsType digits)).stateVariables
      (tableContract (wordsType digits)) =
        [stateVariable 2 1 "table" (wordsType digits),
          stateVariable 3 1 "n" "uint256"] := rfl
  have stored : ¬ (stateVariable 2 1 "table"
      (wordsType digits)).isStorageFree = true := by
    intro free
    cases free
  rw [collect_withTable typed plain sized, ordered,
    storageLeaves_stored stored, leafFields_scalar typed plain, List.map_cons,
    List.cons_append, List.findSome?_cons, faulty] at outcome
  exact outcome

/-- The number one, with more zeros in front than can be read. -/
def longDigits : List Char :=
  List.replicate Text.decimalLimit '0' ++ ['1']

theorem isDigit_of_mem_longDigits {c : Char} (found : c ∈ longDigits) :
    Text.isDigit c = true := by
  rcases List.mem_append.1 found with zero | one
  · rw [(List.mem_replicate.1 zero).2]
    decide
  · rw [List.mem_singleton.1 one]
    decide

theorem length_longDigits : longDigits.length = Text.decimalLimit + 1 := by
  rw [longDigits, List.length_append, List.length_replicate,
    List.length_singleton]

private theorem read_longWords :
    (Reading.read (Sample.file (tableUnits (wordsType longDigits)))).outcome =
      .ok (withTable (wordsType longDigits)) :=
  (rfl)

/-- `contract C` with `uint256 constant MAX`, which has a number as its
location. -/
def locatedSample : Sample :=
  .contract 1 "C" [1]
    [.make .variableDeclaration 2
      [("name", .str "MAX"), ("constant", .bool true), ("src", .int 5),
        typeEntry "uint256"] [] none []]

def locatedUnit : Sample :=
  .unit 0 (.str "src/C.sol") [locatedSample]

def locatedContract : Node :=
  locatedSample.node (some 0) "nodes" true

def located : Compilation :=
  { Sample.compilation [("src/C.sol", locatedUnit)] with
    units := [{ root := locatedUnit.node none "" false
                content := "contract C {}" }] }

private theorem read_located :
    (Reading.read (sourceFile "src/C.sol" "contract C {}"
      locatedUnit.object)).outcome = .ok located :=
  (rfl)

private theorem layout_located :
    located.layout true locatedContract =
      .error (.noOperation .int "split") := by
  have failed : (match located.layout true locatedContract with
      | .error (.noOperation .int "split") => true
      | _ => false) = true := by
    decide +kernel
  split at failed
  · assumption
  · cases failed

/-- A contract may be beyond layout although all its variables are well sized:
for the length of an array, or for the location of a constant. -/
theorem layout_fails_though_wellSized :
    ((Reading.read (Sample.file (tableUnits (wordsType longDigits)))).outcome =
        .ok (withTable (wordsType longDigits)) ∧
      (∀ declaration ∈ (withTable (wordsType longDigits)).stateVariables
          (tableContract (wordsType longDigits)),
        WellSized (withTable (wordsType longDigits)) [] declaration) ∧
      (withTable (wordsType longDigits)).layout true
          (tableContract (wordsType longDigits)) =
        .error (.numberTooLong 4301)) ∧
      (Reading.read (sourceFile "src/C.sol" "contract C {}"
          locatedUnit.object)).outcome = .ok located ∧
        (∀ declaration ∈ located.stateVariables locatedContract,
          declaration.isStorageFree = true) ∧
        located.layout true locatedContract =
          .error (.noOperation .int "split") := by
  have long : Text.decimalLimit < longDigits.length := by
    rw [length_longDigits]
    omega
  obtain ⟨wellSized, fails⟩ :=
    layout_wordsType (fun _ found => isDigit_of_mem_longDigits found) long
  rw [length_longDigits] at fails
  refine ⟨⟨read_longWords, ?_, fails⟩, read_located, ?_, layout_located⟩
  · intro declaration member
    have ordered : (withTable (wordsType longDigits)).stateVariables
        (tableContract (wordsType longDigits)) =
          [stateVariable 2 1 "table" (wordsType longDigits),
            stateVariable 3 1 "n" "uint256"] := rfl
    rw [ordered, List.mem_cons, List.mem_singleton] at member
    rcases member with rfl | rfl
    · exact wellSized
    · exact .scalar rfl (by decide +kernel) (scalarWidth_word _)
  · decide

end Compilation

end ContractAtlas
