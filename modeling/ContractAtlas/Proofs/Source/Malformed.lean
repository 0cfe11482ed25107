/-
Malformed compiler output.

Reading ends in one of three ways: it accepts the output, it refuses it with a
fault of artifacts, or it trips over a value of a shape that it does not
expect.  Each of them has a description in terms of the document alone.
-/

import ContractAtlas.Proofs.Source.Readable

namespace ContractAtlas

/-- The faults that say that an artifact is missing or malformed. -/
def Fault.isArtifact : Fault → Bool
  | outputNotObject => true
  | noSyntaxTrees => true
  | notSourceUnit _ => true
  | artifactPathMissing _ => true
  | buildInfoMissing _ => true
  | artifactFileMissing _ => true
  | artifactNotJson _ => true
  | noMatchingUnit _ => true
  | _ => false

/-- A value that has entries or none at all: it is an object, or it is not
given. -/
def Json.Opens (value : Json) : Prop :=
  value.isGiven = true → value.isObject = true

namespace Reading

/-! ### What reading trips over -/

def IsSourceUnit (tree : Json) : Prop :=
  ∃ fields, tree = .obj fields ∧
    fields.lookup "nodeType" = some (.str "SourceUnit")

/-- The types and ids of the nodes in an entry can be looked up, and so can its
own path if the contents have nothing under the path of the entry. -/
structure Keyed (contents : List (String × String)) (entry : String × Json) :
    Prop where
  nodeTypes : ∀ object ∈ entry.2.nodeObjects,
    ∃ key, ((object.lookup "nodeType").getD (.str "")).key? = some key
  ids : ∀ object ∈ entry.2.nodeObjects,
    ∃ key, ((object.lookup "id").getD .null).key? = some key
  path : (contents.lookup entry.1).getD "" = "" →
    ∀ fields, entry.2 = .obj fields →
      ∃ key, ((fields.lookup "absolutePath").getD (.str "")).key? = some key

/-- The objects of trees that become nodes, in the order of a visit. -/
def visitedObjects (trees : List (String × Json)) :
    List (List (String × Json)) :=
  (Node.preorderOfAll (treesIn trees)).map fun node => node.info.attributes

/-- A contract is the last object with its id, and its bases cannot be looked
up. -/
def HasStrayBases (objects : List (List (String × Json))) : Prop :=
  ∃ earlier object later, objects = earlier ++ object :: later ∧
    Kind.ofNodeType ((object.lookup "nodeType").getD (.str "")) =
        .contractDefinition ∧
    (∃ key, key ≠ .null ∧ ((object.lookup "id").getD .null).key? = some key ∧
      ∀ other ∈ later, ((other.lookup "id").getD .null).key? ≠ some key) ∧
    ¬HasBases object

/-- Compiler output with a value of a shape that reading does not expect. -/
inductive Trips : Json → Prop
  | input {entries : List (String × Json)}
      (closed : ¬(entryOrNull entries "input").Opens) : Trips (.obj entries)
  | inputSources {entries input : List (String × Json)}
      (isInput : entryOrNull entries "input" = .obj input)
      (closed : ¬(entryOrNull input "sources").Opens) : Trips (.obj entries)
  | outputSources {entries compiled : List (String × Json)}
      (isOutput : entryOrNull entries "output" = .obj compiled)
      (closed : ¬(entryOrNull compiled "sources").Opens) : Trips (.obj entries)
  | tree {entries sources earlier later : List (String × Json)}
      {contents : List (String × String)} {entry : String × Json}
      (hasContents : contentsOf entries = .ok contents)
      (hasSources : sourcesOf entries = .ok sources)
      (reached : treesOf sources = earlier ++ entry :: later)
      (units : ∀ other ∈ earlier ++ [entry], IsSourceUnit other.2)
      (unkeyed : ¬Keyed contents entry) : Trips (.obj entries)
  | bases {entries sources : List (String × Json)}
      (hasSources : sourcesOf entries = .ok sources)
      (units : ∀ entry ∈ treesOf sources, IsSourceUnit entry.2)
      (stray : HasStrayBases (visitedObjects (treesOf sources))) :
      Trips (.obj entries)

/-- Output that is no object, sources without a tree, and trees that are no
source units. -/
inductive Unrecognized : Json → Prop
  | noObject {output : Json} (other : output.isObject = false) :
      Unrecognized output
  | noTrees {entries sources : List (String × Json)}
      (hasSources : sourcesOf entries = .ok sources) (given : sources ≠ [])
      (noTree : treesOf sources = []) : Unrecognized (.obj entries)
  | noUnit {entries sources : List (String × Json)} {entry : String × Json}
      (hasSources : sourcesOf entries = .ok sources)
      (member : entry ∈ treesOf sources) (other : ¬IsSourceUnit entry.2) :
      Unrecognized (.obj entries)

/-! ### The parts of compiler output -/

private theorem entriesFor_cases (operation : String) (value : Json) :
    (value.Opens ∧ ∃ entries, entriesFor operation value = .ok entries ∧
        (value = .obj entries ∨ value.isObject = false ∧ entries = [])) ∨
      ¬value.Opens ∧ ∃ fault, entriesFor operation value = .error fault ∧
        fault.isArtifact = false := by
  unfold entriesFor
  by_cases given : value.isGiven = true
  · rw [if_pos given]
    cases value with
    | obj entries =>
        exact Or.inl ⟨fun _ => rfl, entries, rfl, Or.inl rfl⟩
    | null | bool | int | real | str | arr =>
        refine Or.inr ⟨fun opens => ?_, _, rfl, rfl⟩
        cases opens given
  · rw [if_neg given]
    refine Or.inl ⟨fun isGiven => absurd isGiven given, [], rfl, ?_⟩
    cases value with
    | obj entries =>
        cases entries with
        | nil => exact Or.inl rfl
        | cons entry rest => exact absurd rfl given
    | null | bool | int | real | str | arr => exact Or.inr ⟨rfl, rfl⟩

theorem opens_entryOrNull_nil (key : String) : (entryOrNull [] key).Opens := by
  intro given
  cases given

private theorem contentsOf_cases (entries : List (String × Json)) :
    ((∃ contents, contentsOf entries = .ok contents) ∧
        (entryOrNull entries "input").Opens ∧
        ∀ input, entryOrNull entries "input" = .obj input →
          (entryOrNull input "sources").Opens) ∨
      (∃ fault, contentsOf entries = .error fault ∧ fault.isArtifact = false) ∧
        Trips (.obj entries) := by
  rw [contentsOf]
  rcases entriesFor_cases "get" (entryOrNull entries "input") with
    ⟨opens, input, found, shape⟩ | ⟨closed, fault, failed, isOther⟩
  · rw [found]
    rcases entriesFor_cases "items" (entryOrNull input "sources") with
      ⟨sourcesOpen, sources, foundSources, -⟩ |
      ⟨closed, fault, failed, isOther⟩
    · refine Or.inl ⟨?_, opens, ?_⟩
      · show ∃ contents, (entriesFor "items" (entryOrNull input "sources")).bind
          _ = .ok contents
        rw [foundSources]
        exact ⟨_, rfl⟩
      · intro other isInput
        rcases shape with same | ⟨noObject, -⟩
        · rw [isInput] at same
          cases same
          exact sourcesOpen
        · rw [isInput] at noObject
          cases noObject
    · rcases shape with isInput | ⟨-, rfl⟩
      · refine Or.inr ⟨⟨fault, ?_, isOther⟩, .inputSources isInput closed⟩
        show (entriesFor "items" (entryOrNull input "sources")).bind _ = _
        rw [failed]
        rfl
      · exact absurd (opens_entryOrNull_nil "sources") closed
  · rw [failed]
    exact Or.inr ⟨⟨fault, rfl, isOther⟩, .input closed⟩

private theorem sourcesOf_cases (entries : List (String × Json)) :
    ((∃ sources, sourcesOf entries = .ok sources) ∧
        ∀ compiled, entryOrNull entries "output" = .obj compiled →
          (entryOrNull compiled "sources").Opens) ∨
      (∃ fault, sourcesOf entries = .error fault ∧ fault.isArtifact = false) ∧
        Trips (.obj entries) := by
  rw [sourcesOf]
  cases isOutput : entryOrNull entries "output" with
  | obj compiled =>
      dsimp only
      rcases entriesFor_cases "items" (entryOrNull compiled "sources") with
        ⟨opens, sources, found, -⟩ | ⟨closed, fault, failed, isOther⟩
      · refine Or.inl ⟨⟨sources, found⟩, ?_⟩
        intro other same
        cases same
        exact opens
      · exact Or.inr ⟨⟨fault, failed, isOther⟩, .outputSources isOutput closed⟩
  | null | bool | int | real | str | arr =>
      refine Or.inl ⟨?_, ?_⟩
      · dsimp only
        split
        · exact ⟨_, rfl⟩
        · exact ⟨_, rfl⟩
      · intro other same
        cases same

/-! ### Units -/

private theorem nodeType_of_isSourceUnit {nodeType : Json}
    (isUnit : Kind.ofNodeType nodeType = .sourceUnit) :
    nodeType = .str "SourceUnit" := by
  cases nodeType with
  | str name =>
      rw [Kind.ofNodeType] at isUnit
      cases found : Kind.table.lookup name with
      | none =>
          rw [found] at isUnit
          cases isUnit
      | some kind =>
          rw [found] at isUnit
          obtain ⟨earlier, later, listed, -⟩ := List.lookup_eq_some_iff.1 found
          have member : (name, kind) ∈ Kind.table := by
            rw [listed]
            exact List.mem_append_right earlier List.mem_cons_self
          have onlyUnit : ∀ entry ∈ Kind.table,
              entry.2 = .sourceUnit → entry.1 = "SourceUnit" := by
            decide
          exact congrArg Json.str (onlyUnit _ member isUnit)
  | null | bool | int | real | arr | obj => cases isUnit

/-- A value has a tree whose root is a source unit exactly when it is one. -/
theorem isSourceUnit_iff {tree : Json} :
    IsSourceUnit tree ↔
      ∃ root, Node.ofValue? "" false tree = some root ∧
        root.kind = .sourceUnit := by
  constructor
  · rintro ⟨fields, rfl, isUnit⟩
    rw [Node.ofValue?, isUnit]
    exact ⟨_, rfl, rfl⟩
  · rintro ⟨root, built, isUnit⟩
    cases tree with
    | obj fields =>
        rw [Node.ofValue?] at built
        cases hasType : fields.lookup "nodeType" with
        | none =>
            rw [hasType] at built
            cases built
        | some nodeType =>
            rw [hasType] at built
            cases built
            exact ⟨fields, rfl,
              hasType.trans (congrArg some (nodeType_of_isSourceUnit isUnit))⟩
    | null | bool | int | real | str | arr => cases built

private theorem isArtifact_of_nodeFault? {node : Node} {fault : Fault}
    (failed : nodeFault? node = some fault) : fault.isArtifact = false := by
  rw [nodeFault?] at failed
  split at failed
  · cases failed
    rfl
  · split at failed
    · cases failed
      rfl
    · cases failed

private theorem contentFor_cases (contents : List (String × String))
    (path : String)
    (root : Node) :
    ((∃ content, contentFor contents path root = .ok content) ∧
        ((contents.lookup path).getD "" = "" →
          ∃ key, (root.textOr "absolutePath" "").key? = some key)) ∨
      (∃ fault, contentFor contents path root = .error fault ∧
          fault.isArtifact = false) ∧
        (contents.lookup path).getD "" = "" ∧
        ∀ key, (root.textOr "absolutePath" "").key? ≠ some key := by
  rw [contentFor]
  by_cases missing : (contents.lookup path).getD "" = ""
  · rw [missing, if_neg (by decide)]
    cases root.textOr "absolutePath" "" with
    | str own => exact Or.inl ⟨⟨_, rfl⟩, fun _ => ⟨_, rfl⟩⟩
    | null | bool | int | real | arr | obj =>
        dsimp only
        split
        · rename_i key filed
          exact Or.inl ⟨⟨_, rfl⟩, fun _ => ⟨key, filed⟩⟩
        · rename_i unfiled
          refine Or.inr ⟨⟨_, rfl, rfl⟩, rfl, ?_⟩
          intro key filed
          rw [unfiled] at filed
          cases filed
  · have given : (!((contents.lookup path).getD "").isEmpty) = true := by
      rw [Bool.not_eq_true', Bool.eq_false_iff]
      intro isEmpty
      exact missing (String.isEmpty_iff.1 isEmpty)
    rw [if_pos given]
    exact Or.inl ⟨⟨_, rfl⟩, fun isMissing => absurd isMissing missing⟩

private theorem keyed_iff_of_built {contents : List (String × String)}
    {path : String}
    {fields : List (String × Json)} {root : Node}
    (built : Node.ofValue? "" false (.obj fields) = some root) :
    Keyed contents (path, .obj fields) ↔
      root.preorder.findSome? nodeFault? = none ∧
        ((contents.lookup path).getD "" = "" →
          ∃ key, (root.textOr "absolutePath" "").key? = some key) := by
  have sameObjects := attributes_of_built built
  have ownPath : root.textOr "absolutePath" "" =
      (fields.lookup "absolutePath").getD (.str "") := by
    rw [Node.textOr, Node.attributeOr, Node.attribute?,
      Node.attributes_of_ofValue? built]
  rw [List.findSome?_eq_none_iff, ownPath]
  constructor
  · intro keyed
    refine ⟨?_, fun missing => keyed.path missing fields rfl⟩
    intro node below
    have isObject := sameObjects.mem_iff.1 (List.mem_map_of_mem below)
    exact nodeFault?_eq_none_iff.2
      ⟨keyed.nodeTypes _ isObject, keyed.ids _ isObject⟩
  · rintro ⟨noFault, hasPath⟩
    have filed : ∀ object ∈ (Json.obj fields).nodeObjects,
        (∃ key, ((object.lookup "nodeType").getD (.str "")).key? = some key) ∧
          ∃ key, ((object.lookup "id").getD .null).key? = some key := by
      intro object isObject
      obtain ⟨node, below, rfl⟩ :=
        List.mem_map.1 (sameObjects.mem_iff.2 isObject)
      exact nodeFault?_eq_none_iff.1 (noFault node below)
    refine ⟨fun object isObject => (filed object isObject).1,
      fun object isObject => (filed object isObject).2, ?_⟩
    intro missing others same
    cases same
    exact hasPath missing

/-- An entry becomes a unit if it is the tree of a source unit and its parts
can be looked up.  Whether it is a source unit is asked first. -/
theorem unitOf_cases (contents : List (String × String))
    (entry : String × Json) :
    ((∃ unit, unitOf contents entry.1 entry.2 = .ok unit) ∧
        IsSourceUnit entry.2 ∧ Keyed contents entry) ∨
      (unitOf contents entry.1 entry.2 = .error (.notSourceUnit entry.1) ∧
        ¬IsSourceUnit entry.2) ∨
      (∃ fault, unitOf contents entry.1 entry.2 = .error fault ∧
          fault.isArtifact = false) ∧
        IsSourceUnit entry.2 ∧ ¬Keyed contents entry := by
  obtain ⟨path, tree⟩ := entry
  rw [unitOf]
  by_cases isUnit : IsSourceUnit tree
  · obtain ⟨root, built, isRoot⟩ := isSourceUnit_iff.1 isUnit
    rw [built]
    dsimp only
    rw [if_pos isRoot]
    obtain ⟨fields, rfl, -⟩ := id isUnit
    have keyed := @keyed_iff_of_built contents path _ _ built
    cases faulty : root.preorder.findSome? nodeFault? with
    | some fault =>
        obtain ⟨node, -, failed⟩ := List.exists_of_findSome?_eq_some faulty
        refine Or.inr (Or.inr ⟨⟨fault, rfl, isArtifact_of_nodeFault? failed⟩,
          isUnit, ?_⟩)
        rw [keyed, faulty]
        rintro ⟨impossible, -⟩
        cases impossible
    | none =>
        dsimp only
        rcases contentFor_cases contents path root with
          ⟨⟨content, found⟩, hasPath⟩ |
          ⟨⟨fault, failed, isOther⟩, missing, noPath⟩
        · rw [found]
          exact Or.inl ⟨⟨_, rfl⟩, isUnit, keyed.2 ⟨faulty, hasPath⟩⟩
        · rw [failed]
          refine Or.inr (Or.inr ⟨⟨fault, rfl, isOther⟩, isUnit, ?_⟩)
          rw [keyed]
          rintro ⟨-, hasPath⟩
          obtain ⟨key, isKey⟩ := hasPath missing
          exact noPath key isKey
  · refine Or.inr (Or.inl ⟨?_, isUnit⟩)
    cases built : Node.ofValue? "" false tree with
    | none => rfl
    | some root =>
        have isOther : root.kind ≠ .sourceUnit := fun isRoot =>
          isUnit (isSourceUnit_iff.2 ⟨root, built, isRoot⟩)
        exact if_neg isOther

/-- The first entry that is no unit decides how making the units ends. -/
theorem unitsOf_cases (contents : List (String × String))
    (trees : List (String × Json)) :
    ((∃ units, unitsOf contents trees = .ok units) ∧
        ∀ entry ∈ trees, IsSourceUnit entry.2 ∧ Keyed contents entry) ∨
      ∃ earlier entry later, trees = earlier ++ entry :: later ∧
        (∀ other ∈ earlier, IsSourceUnit other.2 ∧ Keyed contents other) ∧
        (unitsOf contents trees = .error (.notSourceUnit entry.1) ∧
            ¬IsSourceUnit entry.2 ∨
          (∃ fault, unitsOf contents trees = .error fault ∧
              fault.isArtifact = false) ∧
            IsSourceUnit entry.2 ∧ ¬Keyed contents entry) := by
  induction trees with
  | nil => exact Or.inl ⟨⟨[], rfl⟩, List.forall_mem_nil _⟩
  | cons entry rest inductionHypothesis =>
      rw [unitsOf]
      rcases unitOf_cases contents entry with
        ⟨⟨unit, made⟩, isUnit, keyed⟩ | ⟨failed, noUnit⟩ |
        ⟨⟨fault, failed, isOther⟩, isUnit, unkeyed⟩
      · rw [made]
        rcases inductionHypothesis with ⟨⟨units, built⟩, all⟩ |
          ⟨earlier, other, later, isRest, before, ends⟩
        · rw [built]
          exact Or.inl ⟨⟨_, rfl⟩,
            List.forall_mem_cons.2 ⟨⟨isUnit, keyed⟩, all⟩⟩
        · refine Or.inr ⟨entry :: earlier, other, later,
            by rw [isRest, List.cons_append],
            List.forall_mem_cons.2 ⟨⟨isUnit, keyed⟩, before⟩, ?_⟩
          rcases ends with ⟨failed, noUnit⟩ |
            ⟨⟨fault, failed, isOther⟩, otherwise⟩
          · rw [failed]
            exact Or.inl ⟨rfl, noUnit⟩
          · rw [failed]
            exact Or.inr ⟨⟨fault, rfl, isOther⟩, otherwise⟩
      · rw [failed]
        exact Or.inr ⟨[], entry, rest, rfl, List.forall_mem_nil _,
          Or.inl ⟨rfl, noUnit⟩⟩
      · rw [failed]
        exact Or.inr ⟨[], entry, rest, rfl, List.forall_mem_nil _,
          Or.inr ⟨⟨fault, rfl, isOther⟩, isUnit, unkeyed⟩⟩

end Reading

/-! ### Links -/

namespace Compilation

open Node (numbered)

private theorem isArtifact_of_baseCandidates {index : Index} {ids : List Json}
    {fault : Fault} (failed : baseCandidates index ids = .error fault) :
    fault.isArtifact = false := by
  induction ids with
  | nil => cases failed
  | cons id rest inductionHypothesis =>
      rw [baseCandidates, Index.find?] at failed
      cases filed : id.key? with
      | none =>
          rw [filed] at failed
          cases failed
          rfl
      | some key =>
          rw [filed] at failed
          dsimp only at failed
          cases later : baseCandidates index rest with
          | error other =>
              rw [later] at failed
              cases failed
              exact inductionHypothesis later
          | ok others =>
              rw [later] at failed
              cases failed

private theorem isArtifact_of_link {index : Index} {nodes : Array Node}
    {info : NodeInfo} {fault : Fault}
    (failed : link index nodes info = .error fault) :
    fault.isArtifact = false := by
  unfold link basesOf at failed
  split at failed
  · dsimp only at failed
    split at failed
    · split at failed
      · rename_i noBases
        split at noBases
        · rename_i notList
          cases noBases
          cases failed
          unfold Json.items at notList
          split at notList
          all_goals cases notList
          rfl
        · split at noBases
          · rename_i unfiled
            cases noBases
            cases failed
            exact isArtifact_of_baseCandidates unfiled
          · cases noBases
      · cases failed
    · cases failed
  · cases failed

/-- A node is filed if it has an id and no later node has it. -/
theorem isIndexed_iff_last {trees : List Node} {node : Node}
    (member : node ∈ numbered trees) :
    isIndexed (indexFor trees) node.info = true ↔
      ∃ key, key ≠ .null ∧ node.id.key? = some key ∧
        ∃ earlier later, numbered trees = earlier ++ node :: later ∧
          ∀ other ∈ later, other.id.key? ≠ some key := by
  rw [isIndexed_iff]
  apply exists_congr
  intro key
  apply and_congr_right
  intro proper
  apply and_congr_right
  intro filed
  rw [indexFor, Index.position?_ofNodes _ proper, Option.map_eq_some_iff]
  constructor
  · rintro ⟨other, found, samePosition⟩
    have isOther := List.mem_reverse.1 (List.mem_of_find?_eq_some found)
    have sameNode : other = node := by
      apply Option.some.inj
      rw [← Node.getElem?_position isOther, samePosition,
        Node.getElem?_position member]
    obtain ⟨-, after, before, split, noneAfter⟩ :=
      List.find?_eq_some_iff_append.1 found
    refine ⟨before.reverse, after.reverse, ?_, ?_⟩
    · have reversed := congrArg List.reverse split
      rw [List.reverse_reverse, List.reverse_append, List.reverse_cons,
        List.append_assoc, sameNode] at reversed
      exact reversed
    · intro later isLater
      have skipped := noneAfter later (List.mem_reverse.1 isLater)
      rw [Bool.not_eq_true', decide_eq_false_iff_not] at skipped
      exact skipped
  · rintro ⟨earlier, later, split, noneLater⟩
    refine ⟨node, ?_, rfl⟩
    rw [List.find?_eq_some_iff_append]
    refine ⟨decide_eq_true filed, later.reverse, earlier.reverse, ?_, ?_⟩
    · rw [split, List.reverse_append, List.reverse_cons, List.append_assoc]
      rfl
    · intro other isOther
      rw [Bool.not_eq_true', decide_eq_false_iff_not]
      exact noneLater other (List.mem_reverse.1 isOther)

end Compilation

namespace Reading

open Node (numbered)

private theorem visitedObjects_eq (trees : List (String × Json)) :
    visitedObjects trees =
      (numbered (treesIn trees)).map fun node => node.info.attributes := by
  have sameInfo := congrArg (List.map NodeInfo.attributes)
    (Node.map_unnumbered (treesIn trees))
  rw [List.map_map, List.map_map] at sameInfo
  exact sameInfo.symm

private theorem hasStrayBases_iff (trees : List (String × Json)) :
    HasStrayBases (visitedObjects trees) ↔
      ∃ node ∈ numbered (treesIn trees), ∀ changed,
        Compilation.linkIn (treesIn trees) node.info ≠ .ok changed := by
  have sameKind : ∀ node ∈ numbered (treesIn trees), node.info.kind =
      Kind.ofNodeType
        ((node.info.attributes.lookup "nodeType").getD (.str "")) :=
    fun node member =>
      (Node.unlinked_of_mem_numbered (unlinked_treesIn trees) member).kind
  have unlinkable : ∀ node : Node,
      (∀ changed, Compilation.linkIn (treesIn trees) node.info ≠
          .ok changed) ↔
        Compilation.isIndexed (Compilation.indexFor (treesIn trees))
            node.info = true ∧
          node.info.kind = .contractDefinition ∧
          ¬HasBases node.info.attributes := by
    intro node
    rw [← not_exists, Compilation.linkIn, Compilation.exists_link_iff,
      Classical.not_imp, Classical.not_imp]
  simp only [unlinkable]
  rw [visitedObjects_eq]
  constructor
  · rintro ⟨earlier, object, later, split, isContract,
      ⟨key, proper, filed, noneLater⟩, stray⟩
    obtain ⟨before, rest, isList, -, isRest⟩ := List.map_eq_append_iff.1 split
    obtain ⟨node, after, rfl, rfl, rfl⟩ := List.map_eq_cons_iff.1 isRest
    have member : node ∈ numbered (treesIn trees) := by
      rw [isList]
      exact List.mem_append_right before List.mem_cons_self
    refine ⟨node, member, ?_, (sameKind node member).trans isContract, stray⟩
    rw [Compilation.isIndexed_iff_last member]
    refine ⟨key, proper, filed, before, after, isList, ?_⟩
    intro other isOther
    exact noneLater _ (List.mem_map_of_mem isOther)
  · rintro ⟨node, member, indexed, isContract, stray⟩
    obtain ⟨key, proper, filed, earlier, later, split, noneLater⟩ :=
      (Compilation.isIndexed_iff_last member).1 indexed
    refine ⟨earlier.map fun node => node.info.attributes, node.info.attributes,
      later.map fun node => node.info.attributes, ?_,
      (sameKind node member).symm.trans isContract,
      ⟨key, proper, filed, ?_⟩, stray⟩
    · rw [split, List.map_append, List.map_cons]
    · exact List.forall_mem_map.2 noneLater

/-! ### How reading ends -/

section

variable {entries sources : List (String × Json)}
  {contents : List (String × String)}

private theorem trips_iff (hasContents : contentsOf entries = .ok contents)
    (hasSources : sourcesOf entries = .ok sources) :
    Trips (.obj entries) ↔
      (∃ earlier entry later, treesOf sources = earlier ++ entry :: later ∧
          (∀ other ∈ earlier ++ [entry], IsSourceUnit other.2) ∧
          ¬Keyed contents entry) ∨
        (∀ entry ∈ treesOf sources, IsSourceUnit entry.2) ∧
          HasStrayBases (visitedObjects (treesOf sources)) := by
  rcases contentsOf_cases entries with ⟨-, opens, inputOpens⟩ |
    ⟨⟨fault, failed, -⟩, -⟩
  case inr =>
    rw [hasContents] at failed
    cases failed
  rcases sourcesOf_cases entries with ⟨-, outputOpens⟩ |
    ⟨⟨fault, failed, -⟩, -⟩
  case inr =>
    rw [hasSources] at failed
    cases failed
  constructor
  · intro trips
    cases trips with
    | input closed => exact absurd opens closed
    | inputSources isInput closed => exact absurd (inputOpens _ isInput) closed
    | outputSources isOutput closed =>
        exact absurd (outputOpens _ isOutput) closed
    | tree otherContents otherSources reached units unkeyed =>
        rw [hasContents] at otherContents
        rw [hasSources] at otherSources
        cases otherContents
        cases otherSources
        exact Or.inl ⟨_, _, _, reached, units, unkeyed⟩
    | bases otherSources units stray =>
        rw [hasSources] at otherSources
        cases otherSources
        exact Or.inr ⟨units, stray⟩
  · rintro (⟨earlier, entry, later, reached, units, unkeyed⟩ | ⟨units, stray⟩)
    · exact .tree hasContents hasSources reached units unkeyed
    · exact .bases hasSources units stray

private theorem unrecognized_iff
    (hasSources : sourcesOf entries = .ok sources) :
    Unrecognized (.obj entries) ↔
      (sources ≠ [] ∧ treesOf sources = []) ∨
        ∃ entry ∈ treesOf sources, ¬IsSourceUnit entry.2 := by
  constructor
  · intro unrecognized
    cases unrecognized with
    | noObject other => cases other
    | noTrees otherSources given noTree =>
        rw [hasSources] at otherSources
        cases otherSources
        exact Or.inl ⟨given, noTree⟩
    | noUnit otherSources member other =>
        rw [hasSources] at otherSources
        cases otherSources
        exact Or.inr ⟨_, member, other⟩
  · rintro (⟨given, noTree⟩ | ⟨entry, member, other⟩)
    · exact .noTrees hasSources given noTree
    · exact .noUnit hasSources member other

end

/-- The three ways in which reading ends. -/
inductive Ends (output : Json) : Except Fault Compilation → Prop
  | accepted (compilation : Compilation) (smooth : ¬Trips output)
      (recognized : ¬Unrecognized output) : Ends output (.ok compilation)
  | refused {fault : Fault} (artifact : fault.isArtifact = true)
      (smooth : ¬Trips output) (unrecognized : Unrecognized output) :
      Ends output (.error fault)
  | tripped {fault : Fault} (other : fault.isArtifact = false)
      (trips : Trips output) : Ends output (.error fault)

/-- An entry that is no unit stops reading before the entries behind it. -/
theorem keyed_before_stop {contents : List (String × String)}
    {earlier later before behind : List (String × Json)}
    {entry stop : String × Json}
    (same : earlier ++ entry :: later = before ++ stop :: behind)
    (units : ∀ other ∈ earlier ++ [entry], IsSourceUnit other.2)
    (noUnit : ¬IsSourceUnit stop.2)
    (keyed : ∀ other ∈ before, Keyed contents other) :
    Keyed contents entry := by
  rcases List.append_eq_append_iff.1 same with
    ⟨between, isBefore, rest⟩ | ⟨between, isEarlier, rest⟩
  · cases between with
    | nil =>
        cases rest
        exact absurd (units entry List.mem_concat_self) noUnit
    | cons first others =>
        cases rest
        apply keyed
        rw [isBefore]
        exact List.mem_append_right earlier List.mem_cons_self
  · have isUnit : IsSourceUnit stop.2 := by
      apply units
      rw [isEarlier]
      cases between with
      | nil =>
          cases rest
          exact List.mem_concat_self
      | cons first others =>
          cases rest
          exact List.mem_append_left _
            (List.mem_append_right before List.mem_cons_self)
    exact absurd isUnit noUnit

private theorem compile_ends {entries sources : List (String × Json)}
    {contents : List (String × String)}
    (hasContents : contentsOf entries = .ok contents)
    (hasSources : sourcesOf entries = .ok sources) :
    Ends (.obj entries) (compile contents sources) := by
  have trips := trips_iff hasContents hasSources
  have unrecognized := unrecognized_iff hasSources
  rw [compile]
  by_cases noTree : ((treesOf sources).isEmpty && !sources.isEmpty) = true
  · obtain ⟨isEmpty, given⟩ := Bool.and_eq_true_iff.1 noTree
    have noTrees := List.isEmpty_iff.1 isEmpty
    have hasSome : sources ≠ [] := by
      rintro rfl
      cases given
    rw [if_pos noTree]
    apply Ends.refused rfl
    · rw [trips, noTrees]
      rintro (⟨earlier, entry, later, reached, -⟩ |
        ⟨-, earlier, object, later, reached, -⟩)
      · exact List.append_ne_nil_of_right_ne_nil earlier
          (List.cons_ne_nil entry later) reached.symm
      · exact List.append_ne_nil_of_right_ne_nil earlier
          (List.cons_ne_nil object later) reached.symm
    · exact unrecognized.2 (Or.inl ⟨hasSome, noTrees⟩)
  · rw [if_neg noTree]
    rcases unitsOf_cases contents (treesOf sources) with
      ⟨⟨units, built⟩, all⟩ | ⟨earlier, entry, later, reached, before, ends⟩
    · have isUnit := fun entry member => (all entry member).1
      have sameTrees := map_tree_of_unitsOf built
      have stray := hasStrayBases_iff (treesOf sources)
      rw [built]
      rcases Compilation.ofUnits_cases units with
        ⟨⟨compilation, linked⟩, linkable⟩ | ⟨fault, failed, node, member, other⟩
      · dsimp only
        rw [linked]
        apply Ends.accepted
        · rw [trips, stray]
          rintro (⟨earlier, entry, later, reached, -, unkeyed⟩ |
            ⟨-, node, member, unlinkable⟩)
          · apply unkeyed
            apply (all entry _).2
            rw [reached]
            exact List.mem_append_right earlier List.mem_cons_self
          · rw [sameTrees] at linkable
            obtain ⟨changed, isLinked⟩ := linkable node member
            exact unlinkable changed isLinked
        · rw [unrecognized]
          rintro (⟨given, noTrees⟩ | ⟨entry, member, noUnit⟩)
          · apply noTree
            rw [noTrees, List.isEmpty_eq_false_iff.2 given]
            rfl
          · exact noUnit (isUnit entry member)
      · dsimp only
        rw [failed]
        apply Ends.tripped (Compilation.isArtifact_of_link other)
        rw [trips, stray, ← sameTrees]
        refine Or.inr ⟨isUnit, node, member, ?_⟩
        intro changed isLinked
        rw [other] at isLinked
        cases isLinked
    · rcases ends with ⟨failed, noUnit⟩ | ⟨⟨fault, failed, isOther⟩, isUnit, unkeyed⟩
      · rw [failed]
        have stops : entry ∈ treesOf sources := by
          rw [reached]
          exact List.mem_append_right earlier List.mem_cons_self
        apply Ends.refused rfl
        · rw [trips]
          rintro (⟨others, other, rest, isReached, units, unkeyed⟩ | ⟨units, -⟩)
          · apply unkeyed
            exact keyed_before_stop (isReached.symm.trans reached) units noUnit
              fun one member => (before one member).2
          · exact noUnit (units entry stops)
        · exact unrecognized.2 (Or.inr ⟨entry, stops, noUnit⟩)
      · rw [failed]
        apply Ends.tripped isOther
        refine .tree hasContents hasSources reached ?_ unkeyed
        rw [List.forall_mem_append, List.forall_mem_singleton]
        exact ⟨fun other member => (before other member).1, isUnit⟩

private theorem read?_ends (output : Json) : Ends output (read? output) := by
  cases output with
  | obj entries =>
      rw [read?]
      rcases contentsOf_cases entries with ⟨⟨contents, hasContents⟩, -⟩ |
        ⟨⟨fault, failed, isOther⟩, trips⟩
      · rw [hasContents]
        rcases sourcesOf_cases entries with ⟨⟨sources, hasSources⟩, -⟩ |
          ⟨⟨fault, failed, isOther⟩, trips⟩
        · rw [hasSources]
          exact compile_ends hasContents hasSources
        · rw [failed]
          exact .tripped isOther trips
      · rw [failed]
        exact .tripped isOther trips
  | null | bool | int | real | str | arr =>
      apply Ends.refused rfl
      · intro trips
        cases trips
      · exact .noObject rfl

/-- Reading trips exactly over the values that `Trips` describes; otherwise it
refuses what is unrecognized with a fault of artifacts and accepts the rest. -/
theorem read_refuses_or_trips (output : Json) :
    ((∃ compilation, (read output).outcome = .ok compilation) ↔
        ¬Trips output ∧ ¬Unrecognized output) ∧
      ((∃ fault, (read output).outcome = .error fault ∧
          fault.isArtifact = true) ↔
        ¬Trips output ∧ Unrecognized output) ∧
      ((∃ fault, (read output).outcome = .error fault ∧
          fault.isArtifact = false) ↔
        Trips output) := by
  have ends := read?_ends output
  rw [outcome_read]
  generalize read? output = outcome at ends
  cases ends with
  | accepted compilation smooth recognized => simp [smooth, recognized]
  | refused artifact smooth unrecognized =>
      simp [artifact, smooth, unrecognized]
  | tripped other trips => simp [other, trips]

def nullBases : Json :=
  .obj
    [("a.sol",
        unitObject 1
          [nodeObject "ContractDefinition" (.int 2)
            [("linearizedBaseContracts", .null)]])]

/-- Reading does trip: over a number that stands for the input of the compiler,
and over a contract whose list of bases is null. -/
theorem read_trips_over_number_and_null :
    (read (.obj [("input", .int 5)])).outcome =
        .error (.noOperation .int "get") ∧
      (Fault.noOperation .int "get").isArtifact = false ∧
      (read nullBases).outcome = .error (.notIterable .null) ∧
      (Fault.notIterable .null).isArtifact = false :=
  ⟨rfl, rfl, rfl, rfl⟩

end Reading

end ContractAtlas
