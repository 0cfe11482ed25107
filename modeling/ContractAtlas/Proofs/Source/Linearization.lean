/-
The bases of a contract.

A contract that is filed under its id has the contracts that the listed ids
stand for as its bases, or itself alone if they stand for none.  A contract
that is not filed has no bases, and then none of its own declarations count.
So the bases start with the contract itself exactly when it is filed and the
first listed id that stands for a contract stands for this one.
-/

import ContractAtlas.Proofs.Source.Readable
import ContractAtlas.Proofs.Storage.Inheritance
import ContractAtlas.Report.Roots

namespace ContractAtlas

namespace Compilation

open Node (numbered)

/-! ### Ids and what they stand for -/

/-- The last node with an id; null is no id. -/
def lastWithId? (compilation : Compilation) (id : Json) : Option Node :=
  id.key?.bind fun key =>
    if key = .null then none
    else
      compilation.visited.reverse.find? fun node => node.id.key? = some key

/-- The contract that an id stands for. -/
def contractUnder? (compilation : Compilation) (id : Json) : Option Node :=
  (compilation.lastWithId? id).filter fun node =>
    node.kind = .contractDefinition

/-- The contracts that the listed base ids of a contract stand for. -/
def listedBases (compilation : Compilation) (contract : Node) : List Node :=
  match (contract.attributeOr "linearizedBaseContracts" (.arr [])).items with
  | .ok ids => ids.filterMap compilation.contractUnder?
  | .error _ => []

private theorem mem_visited_of_lastWithId? {compilation : Compilation}
    {id : Json}
    {node : Node} (found : compilation.lastWithId? id = some node) :
    node ∈ compilation.visited := by
  obtain ⟨key, -, found⟩ := Option.bind_eq_some_iff.1 found
  split at found
  · cases found
  · exact List.mem_reverse.1 (List.mem_of_find?_eq_some found)

private theorem mem_visited_of_contractUnder? {compilation : Compilation}
    {id : Json}
    {node : Node} (found : compilation.contractUnder? id = some node) :
    node ∈ compilation.visited :=
  mem_visited_of_lastWithId? (Option.filter_eq_some_iff.1 found).1

section

variable {compilation : Compilation} {before : List Node}
  (linked : compilation.LinkedFrom before)
include linked

private theorem LinkedFrom.position?_of_key {id : Json} {key : Json.Key}
    (filed : id.key? = some key) :
    compilation.index.position? key =
      (compilation.lastWithId? id).map fun node => node.info.position := by
  rw [lastWithId?, filed, Option.bind_some]
  by_cases isNull : key = .null
  · rw [if_pos isNull, isNull, linked.filed, Index.position?_ofNodes_null]
    rfl
  · rw [if_neg isNull, linked.position?_eq isNull]

private theorem LinkedFrom.isIndexed_iff_lastWithId? {node : Node}
    (member : node ∈ compilation.visited) :
    isIndexed compilation.index node.info = true ↔
      compilation.lastWithId? node.id = some node := by
  rw [linked.isIndexed_iff member, lastWithId?, Option.bind_eq_some_iff]
  constructor
  · rintro ⟨key, proper, filed, found⟩
    refine ⟨key, filed, ?_⟩
    rw [if_neg proper, ← linked.indexed?_eq proper]
    exact found
  · rintro ⟨key, filed, found⟩
    by_cases isNull : key = .null
    · rw [if_pos isNull] at found
      cases found
    · rw [if_neg isNull, ← linked.indexed?_eq isNull] at found
      exact ⟨key, isNull, filed, found⟩

private theorem LinkedFrom.filterMap_nodeAt? {nodes : List Node}
    (visited : ∀ node ∈ nodes, node ∈ compilation.visited) :
    (nodes.map fun node => node.info.position).filterMap compilation.nodeAt? =
      nodes := by
  rw [List.filterMap_map]
  have found : ∀ node ∈ nodes,
      (compilation.nodeAt? ∘ fun node => node.info.position) node =
        some node :=
    fun node member => linked.nodeAt?_of_mem (visited node member)
  rw [List.filterMap_congr found]
  exact List.filterMap_some

end

theorem baseCandidates_eq_ok {index : Index} {ids : List Json}
    {candidates : List (Option Nat)}
    (found : baseCandidates index ids = .ok candidates) :
    candidates = ids.map fun id => id.key?.bind index.position? := by
  induction ids generalizing candidates with
  | nil =>
      cases found
      rfl
  | cons id rest inductionHypothesis =>
      rw [baseCandidates, Index.find?] at found
      cases filed : id.key? with
      | none =>
          simp only [filed] at found
          cases found
      | some key =>
          simp only [filed] at found
          cases later : baseCandidates index rest with
          | error fault =>
              simp only [later] at found
              cases found
          | ok others =>
              simp only [later] at found
              cases found
              rw [List.map_cons, filed, Option.bind_some,
                ← inductionHypothesis later]

/-- What a link does to the kind and the bases of a node. -/
theorem link_bases {index : Index} {nodes : Array Node}
    {info changed : NodeInfo} (linked : link index nodes info = .ok changed) :
    changed.kind = info.kind ∧
      (isIndexed index info = true → info.kind = .contractDefinition →
        basesOf index nodes info = .ok changed.bases) ∧
      (isIndexed index info = false → changed.bases = info.bases) := by
  cases indexed : isIndexed index info with
  | false =>
      rw [link, indexed, if_neg Bool.false_ne_true] at linked
      cases linked
      refine ⟨rfl, ?_, fun _ => rfl⟩
      intro impossible
      cases impossible
  | true =>
      rw [link, if_pos indexed] at linked
      by_cases isContract : info.kind = .contractDefinition
      · rw [if_pos isContract] at linked
        cases found : basesOf index nodes info with
        | error fault =>
            simp only [found] at linked
            cases linked
        | ok bases =>
            simp only [found] at linked
            cases linked
            refine ⟨rfl, fun _ _ => rfl, ?_⟩
            intro impossible
            cases impossible
      · rw [if_neg isContract] at linked
        cases linked
        refine ⟨rfl, fun _ contract => absurd contract isContract, ?_⟩
        intro impossible
        cases impossible

/-! ### The bases of a filed contract -/

section

variable {compilation : Compilation} {trees : List Node}
  (made : compilation.OfTrees trees)
include made

private theorem OfTrees.isContractAt_position {node : Node}
    (member : node ∈ compilation.visited) :
    isContractAt (numbered trees).toArray node.info.position =
      decide (node.kind = .contractDefinition) := by
  obtain ⟨before, isBefore, linked⟩ := exists_left_of_forall₂ made.paired member
  obtain ⟨samePosition, -, -, -⟩ := link_eq_ok linked
  obtain ⟨sameKind, -, -⟩ := link_bases linked
  rw [isContractAt, samePosition, List.getElem?_toArray,
    Node.getElem?_position isBefore]
  show decide (before.info.kind = _) = decide (node.info.kind = _)
  rw [sameKind]

private theorem OfTrees.filter_isContractAt (ids : List Json)
    (filed : ∀ id ∈ ids, ∃ key, id.key? = some key) :
    ((ids.map fun id => id.key?.bind compilation.index.position?).filterMap
        fun position => position).filter
          (isContractAt (numbered trees).toArray) =
      (ids.filterMap compilation.contractUnder?).map
        fun node => node.info.position := by
  rw [List.filterMap_map, List.filter_filterMap, List.map_filterMap]
  apply List.filterMap_congr
  intro id member
  obtain ⟨key, isKey⟩ := filed id member
  simp only [Function.comp_apply, isKey, Option.bind_some,
    made.linkedFrom.position?_of_key isKey, contractUnder?]
  cases found : compilation.lastWithId? id with
  | none => rfl
  | some node =>
      have sameKind :=
        made.isContractAt_position (mem_visited_of_lastWithId? found)
      simp only [Option.map_some, Option.filter_some, sameKind,
        decide_eq_true_eq]
      split <;> rfl

private theorem OfTrees.linearizedBases_of_filed {contract : Node}
    (member : contract ∈ compilation.visited)
    (isContract : contract.kind = .contractDefinition)
    (filed : compilation.lastWithId? contract.id = some contract) :
    compilation.linearizedBases contract =
      if compilation.listedBases contract = [] then [contract]
      else compilation.listedBases contract := by
  have linkedFrom := made.linkedFrom
  obtain ⟨before, isBefore, linked⟩ := exists_left_of_forall₂ made.paired member
  obtain ⟨samePosition, -, sameAttributes, -⟩ := link_eq_ok linked
  obtain ⟨sameKind, hasBases, -⟩ := link_bases linked
  have sameIndex : indexFor trees = compilation.index :=
    linkedFrom.filed.symm
  have indexed : isIndexed (indexFor trees) before.info = true := by
    have isFiled := (linkedFrom.isIndexed_iff_lastWithId? member).2 filed
    rw [isIndexed, samePosition, sameAttributes, ← sameIndex] at isFiled
    rw [isIndexed]
    exact isFiled
  have bases := hasBases indexed (sameKind.symm.trans isContract)
  have readable := exists_basesOf_iff.1 ⟨_, bases⟩
  obtain ⟨ids, isList, filedIds⟩ := readable
  obtain ⟨candidates, found⟩ : ∃ candidates,
      baseCandidates (indexFor trees) ids = .ok candidates :=
    exists_baseCandidates_iff.2 filedIds
  have listed : compilation.listedBases contract =
      ids.filterMap compilation.contractUnder? := by
    rw [← sameAttributes] at isList
    rw [listedBases, Node.attributeOr, Node.attribute?, isList]
  rw [basesOf, isList] at bases
  simp only [found, baseCandidates_eq_ok found] at bases
  rw [sameIndex, made.filter_isContractAt ids filedIds, ← listed,
    List.isEmpty_map] at bases
  rw [linearizedBases, ← Except.ok.inj bases]
  by_cases none : compilation.listedBases contract = []
  · rw [if_pos none, if_pos (List.isEmpty_iff.2 none), ← samePosition]
    exact linkedFrom.filterMap_nodeAt? (List.forall_mem_singleton.2 member)
  · rw [if_neg none, if_neg (fun empty => none (List.isEmpty_iff.1 empty))]
    apply linkedFrom.filterMap_nodeAt?
    intro base isBase
    rw [listed] at isBase
    obtain ⟨id, -, under⟩ := List.mem_filterMap.1 isBase
    exact mem_visited_of_contractUnder? under

private theorem OfTrees.linearizedBases_of_unfiled
    (unlinked : ∀ node ∈ Node.preorderOfAll trees, node.info.Unlinked)
    {contract : Node} (member : contract ∈ compilation.visited)
    (unfiled : compilation.lastWithId? contract.id ≠ some contract) :
    compilation.linearizedBases contract = [] := by
  have linkedFrom := made.linkedFrom
  obtain ⟨before, isBefore, linked⟩ := exists_left_of_forall₂ made.paired member
  obtain ⟨samePosition, -, sameAttributes, -⟩ := link_eq_ok linked
  obtain ⟨-, -, keepsBases⟩ := link_bases linked
  have unindexed : isIndexed (indexFor trees) before.info = false := by
    rw [← Bool.not_eq_true]
    intro indexed
    apply unfiled
    rw [← linkedFrom.isIndexed_iff_lastWithId? member, linkedFrom.filed,
      isIndexed, samePosition, sameAttributes]
    exact indexed
  have noBases : before.info.bases = [] :=
    (Node.unlinked_of_mem_numbered unlinked isBefore).bases
  rw [linearizedBases, keepsBases unindexed, noBases]
  rfl

end

/-! ### Declarations of the contract itself -/

end Compilation

namespace Node

private theorem mem_of_mem_firstOfEach {seen : List Nat} {nodes : List Node}
    {node : Node} (member : node ∈ firstOfEach seen nodes) : node ∈ nodes := by
  induction nodes generalizing seen with
  | nil => exact member
  | cons first rest inductionHypothesis =>
      rw [firstOfEach] at member
      split at member
      · exact List.mem_cons_of_mem first (inductionHypothesis member)
      · rcases List.mem_cons.1 member with rfl | later
        · exact List.mem_cons_self
        · exact List.mem_cons_of_mem first (inductionHypothesis later)

private theorem exists_mem_firstOfEach {seen : List Nat} {nodes : List Node}
    {node : Node} (member : node ∈ nodes)
    (fresh : node.info.position ∉ seen) :
    ∃ other ∈ firstOfEach seen nodes,
      other.info.position = node.info.position := by
  induction nodes generalizing seen with
  | nil => cases member
  | cons first rest inductionHypothesis =>
      rw [firstOfEach]
      split
      · rename_i known
        rcases List.mem_cons.1 member with rfl | later
        · exact absurd known fresh
        · exact inductionHypothesis later fresh
      · by_cases same : first.info.position = node.info.position
        · exact ⟨first, List.mem_cons_self, same⟩
        · have later : node ∈ rest := by
            rcases List.mem_cons.1 member with rfl | later
            · exact absurd rfl same
            · exact later
          have stillFresh :
              node.info.position ∉ first.info.position :: seen := by
            intro known
            rcases List.mem_cons.1 known with equal | earlier
            · exact same equal.symm
            · exact fresh earlier
          obtain ⟨other, found, samePosition⟩ :=
            inductionHypothesis later stillFresh
          exact ⟨other, List.mem_cons_of_mem first found, samePosition⟩

theorem mem_children_of_membersOfKind {kind : Kind} {node child : Node}
    (member : child ∈ node.membersOfKind kind) :
    child ∈ node.children ∧ child.kind = kind := by
  obtain ⟨inField, hasKind⟩ := List.mem_filter.1 member
  exact ⟨(List.mem_filter.1 inField).1, of_decide_eq_true hasKind⟩

end Node

namespace Compilation

private theorem LinkedFrom.eq_of_position_eq {compilation : Compilation}
    {before : List Node} (linked : compilation.LinkedFrom before)
    {first second : Node} (isFirst : first ∈ compilation.visited)
    (isSecond : second ∈ compilation.visited)
    (same : first.info.position = second.info.position) : first = second := by
  have found := linked.nodeAt?_of_mem isFirst
  rw [same, linked.nodeAt?_of_mem isSecond] at found
  exact (Option.some.inj found).symm

private theorem mem_visited_of_declared {compilation : Compilation}
    {unit : SourceUnit}
    (isUnit : unit ∈ compilation.units) {contract : Node}
    (declared : contract ∈ unit.root.contracts) :
    contract ∈ compilation.visited := by
  refine mem_visited_child ?_ (Node.mem_children_of_membersOfKind declared).1
  rw [visited_eq_preorderOfAll, Node.preorderOfAll_eq_flatMap]
  refine List.mem_flatMap.2 ⟨_, List.mem_map_of_mem isUnit, ?_⟩
  rw [Node.preorder_eq]
  exact List.mem_cons_self

/-- The declarations of a contract among its bases are among those that
count for it. -/
theorem LinkedFrom.mem_definitionsOfKind {compilation : Compilation}
    {before : List Node} (linked : compilation.LinkedFrom before)
    {kind : Kind} {contract base declaration : Node}
    (isBase : base ∈ compilation.linearizedBases contract)
    (declared : declaration ∈ base.membersOfKind kind) :
    declaration ∈ compilation.definitionsOfKind kind contract := by
  have visited : ∀ other,
      other ∈ (compilation.linearizedBases contract).reverse.flatMap
        (Node.membersOfKind kind) → other ∈ compilation.visited := by
    intro other member
    obtain ⟨around, isAround, inside⟩ := List.mem_flatMap.1 member
    obtain ⟨position, -, found⟩ :=
      List.mem_filterMap.1 (List.mem_reverse.1 isAround)
    exact mem_visited_child (linked.mem_visited_of_nodeAt? found)
      (Node.mem_children_of_membersOfKind inside).1
  have listed : declaration ∈
      (compilation.linearizedBases contract).reverse.flatMap
        (Node.membersOfKind kind) :=
    List.mem_flatMap.2 ⟨base, List.mem_reverse.2 isBase, declared⟩
  rw [definitionsOfKind_eq]
  obtain ⟨other, isFirst, same⟩ :=
    Node.exists_mem_firstOfEach listed List.not_mem_nil
  rw [← linked.eq_of_position_eq
    (visited other (Node.mem_of_mem_firstOfEach isFirst))
    (visited declaration listed) same]
  exact isFirst

end Compilation

namespace Reading

open Compilation

private theorem exists_trees_of_read {output : Json} {compilation : Compilation}
    (accepted : (read output).outcome = .ok compilation) :
    ∃ trees, compilation.OfTrees trees ∧
      ∀ node ∈ Node.preorderOfAll trees, node.info.Unlinked := by
  obtain ⟨contents, entries, units, built, linked⟩ :=
    exists_unitsOf_of_read accepted
  exact ⟨treesIn entries, ⟨units, map_tree_of_unitsOf built, linked⟩,
    unlinked_treesIn entries⟩

/-- In a compilation that was read, the bases of a contract start with the
contract itself exactly when no later node has its id and the first listed id
that stands for a contract, if there is one, stands for this contract.  A
contract among its own bases has its variables in its layout and its functions
among the candidates for roots.  A contract whose id is missing or stands for a
later node has no variables and no roots at all. -/
theorem read_lists_contract_first_iff {output : Json}
    {compilation : Compilation}
    (accepted : (read output).outcome = .ok compilation) {unit : SourceUnit}
    (isUnit : unit ∈ compilation.units) {contract : Node}
    (declared : contract ∈ unit.root.contracts) :
    ((compilation.linearizedBases contract).head? = some contract ↔
      compilation.lastWithId? contract.id = some contract ∧
        ∀ first ∈ (compilation.listedBases contract).head?,
          first = contract) ∧
    (contract ∈ compilation.linearizedBases contract →
      (∀ declaration ∈ contract.membersOfKind .variableDeclaration,
        declaration ∈ compilation.stateVariables contract) ∧
      ∀ options, ∀ function ∈ contract.membersOfKind .functionDefinition,
        isRootCandidate options contract contract function = true →
          function ∈ compilation.rootCandidates options contract) ∧
    (compilation.lastWithId? contract.id ≠ some contract →
      compilation.stateVariables contract = [] ∧
        ∀ options, compilation.roots options contract = .ok []) := by
  obtain ⟨trees, made, unlinked⟩ := exists_trees_of_read accepted
  have visited := mem_visited_of_declared isUnit declared
  have isContract := (Node.mem_children_of_membersOfKind declared).2
  refine ⟨?first, ?inside, ?outside⟩
  case first =>
    by_cases filed : compilation.lastWithId? contract.id = some contract
    · rw [made.linearizedBases_of_filed visited isContract filed]
      cases compilation.listedBases contract with
      | nil => simp [filed]
      | cons first rest => simp [filed]
    · rw [made.linearizedBases_of_unfiled unlinked visited filed]
      simp [filed]
  case inside =>
    intro isBase
    refine ⟨?_, ?_⟩
    · intro declaration member
      exact made.linkedFrom.mem_definitionsOfKind isBase member
    · intro options function member isCandidate
      exact List.mem_flatMap.2
        ⟨contract, isBase, List.mem_filter.2 ⟨member, isCandidate⟩⟩
  case outside =>
    intro unfiled
    have noBases := made.linearizedBases_of_unfiled unlinked visited unfiled
    refine ⟨?_, ?_⟩
    · rw [stateVariables, definitionsOfKind_eq, noBases]
      rfl
    · intro options
      rw [roots, rootCandidates, noBases]
      rfl

/-! ### Two files with one contract each -/

/-- The positions of all contracts, unit by unit, each with the positions of
its bases. -/
def basePositions (compilation : Compilation) : List (List (Nat × List Nat)) :=
  compilation.units.map fun unit =>
    unit.root.contracts.map fun contract =>
      (contract.info.position,
        (compilation.linearizedBases contract).map
          fun base => base.info.position)

private theorem exists_contract_of_basePositions {output : Json}
    {shown : List (List (Nat × List Nat))}
    (evaluated :
      (read output).outcome.toOption.map basePositions = some shown)
    {inUnit : List (Nat × List Nat)} (isInUnit : inUnit ∈ shown)
    {position : Nat} {bases : List Nat} (isShown : (position, bases) ∈ inUnit) :
    ∃ compilation unit contract, (read output).outcome = .ok compilation ∧
      unit ∈ compilation.units ∧ contract ∈ unit.root.contracts ∧
      contract.info.position = position ∧
      (compilation.linearizedBases contract).map
        (fun base => base.info.position) = bases := by
  cases accepted : (read output).outcome with
  | error fault =>
      rw [accepted] at evaluated
      cases evaluated
  | ok compilation =>
      rw [accepted] at evaluated
      rw [← Option.some.inj evaluated] at isInUnit
      obtain ⟨unit, isUnit, rfl⟩ := List.mem_map.1 isInUnit
      obtain ⟨contract, declared, same⟩ := List.mem_map.1 isShown
      exact ⟨compilation, unit, contract, rfl, isUnit, declared,
        congrArg Prod.fst same, congrArg Prod.snd same⟩

/-- A contract with one state variable. -/
def contractWithVariable (id : Int) (bases : List Int) : Json :=
  contractObject id bases
    [("nodes", .arr [nodeObject "VariableDeclaration" (.int (id + 1)) []])]

/-- The contract of the second file derives from that of the first and from
one that is missing. -/
def derivedFile : Json :=
  .obj
    [("base.sol", unitObject 1 [contractWithVariable 2 [2]]),
      ("derived.sol", unitObject 4 [contractWithVariable 5 [5, 9, 2]])]

theorem read_derivedFile_lists_contract_first :
    ∃ compilation unit contract,
      (read derivedFile).outcome = .ok compilation ∧
      unit ∈ compilation.units ∧ contract ∈ unit.root.contracts ∧
      (compilation.linearizedBases contract).map
        (fun base => base.info.position) = [4, 1] ∧
      compilation.lastWithId? contract.id = some contract ∧
      ∀ declaration ∈ contract.membersOfKind .variableDeclaration,
        declaration ∈ compilation.stateVariables contract := by
  have evaluated : (read derivedFile).outcome.toOption.map basePositions =
      some [[(1, [1])], [(4, [4, 1])]] := rfl
  obtain ⟨compilation, unit, contract, accepted, isUnit, declared, atPosition,
    bases⟩ := exists_contract_of_basePositions evaluated
      (List.mem_cons_of_mem _ List.mem_cons_self) List.mem_cons_self
  obtain ⟨listsFirst, counted, -⟩ :=
    read_lists_contract_first_iff accepted isUnit declared
  have first : (compilation.linearizedBases contract).head? =
      some contract := by
    obtain ⟨trees, made, -⟩ := exists_trees_of_read accepted
    cases listed : compilation.linearizedBases contract with
    | nil =>
        rw [listed] at bases
        cases bases
    | cons base rest =>
        have isBase : base ∈ compilation.linearizedBases contract := by
          rw [listed]
          exact List.mem_cons_self
        obtain ⟨position, -, found⟩ := List.mem_filterMap.1 isBase
        have samePosition : base.info.position = contract.info.position := by
          rw [listed] at bases
          rw [atPosition]
          exact (List.cons.inj bases).1
        rw [made.linkedFrom.eq_of_position_eq
          (made.linkedFrom.mem_visited_of_nodeAt? found)
          (mem_visited_of_declared isUnit declared) samePosition]
        rfl
  exact ⟨compilation, unit, contract, accepted, isUnit, declared, bases,
    (listsFirst.1 first).1, (counted (List.mem_of_head? first)).1⟩

/-- Both files come from compilations of their own, with ids that overlap. -/
def mergedFiles : Json :=
  .obj
    [("first.sol", unitObject 1 [contractWithVariable 2 [2]]),
      ("second.sol", unitObject 1 [contractWithVariable 2 [2]])]

/-- The contract of the first file has no bases, not even itself. -/
theorem read_mergedFiles_loses_contract :
    ∃ compilation unit contract,
      (read mergedFiles).outcome = .ok compilation ∧
      unit ∈ compilation.units ∧ contract ∈ unit.root.contracts ∧
      contract.info.position = 1 ∧
      compilation.linearizedBases contract = [] := by
  have evaluated : (read mergedFiles).outcome.toOption.map basePositions =
      some [[(1, [])], [(4, [4])]] := rfl
  obtain ⟨compilation, unit, contract, accepted, isUnit, declared, atPosition,
    bases⟩ := exists_contract_of_basePositions evaluated List.mem_cons_self
      List.mem_cons_self
  exact ⟨compilation, unit, contract, accepted, isUnit, declared, atPosition,
    List.map_eq_nil_iff.1 bases⟩

end Reading

end ContractAtlas
