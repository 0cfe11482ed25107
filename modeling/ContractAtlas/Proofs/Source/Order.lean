/-
Trees in another order.

When the ids of all nodes are different integers, an id stands for the one
node that carries it, in whatever order the trees are numbered.  Numbering the
trees in another order then only renames the numbers: links lead to the same
nodes, and they fail for the same trees.
-/

import ContractAtlas.Proofs.Source.Renaming
import ContractAtlas.Proofs.Source.Resolution

namespace ContractAtlas

/-! ### Trees as they are built -/

/-- What is known of a node before it is numbered and linked. -/
structure NodeInfo.Unlinked (info : NodeInfo) : Prop where
  kind :
    info.kind =
      Kind.ofNodeType ((info.attributes.lookup "nodeType").getD (.str ""))
  target : info.target = none
  bases : info.bases = []

namespace Node

mutual

theorem unlinked_ofValue? (field : String) (listed : Bool) : (value : Json) →
    ∀ node ∈ preorderOfAll (ofValue? field listed value).toList,
      node.info.Unlinked
  | .obj entries, node, member => by
      rw [ofValue?] at member
      cases hasType : entries.lookup "nodeType" with
      | none =>
          rw [hasType] at member
          simp only [Option.toList, preorderOfAll] at member
          cases member
      | some nodeType =>
          rw [hasType] at member
          simp only [Option.toList, preorderOfAll, preorder,
            List.append_nil] at member
          rcases List.mem_cons.1 member with rfl | below
          · refine ⟨?_, rfl, rfl⟩
            simp only [info, hasType, Option.getD_some]
          · have arranged := preorderOfAll_perm
              (arrange_perm (nodup_visitOrder nodeType) (ofEntries entries))
            exact unlinked_ofEntries entries node (arranged.mem_iff.1 below)
  | .null, node, member | .bool _, node, member | .int _, node, member
  | .real _, node, member | .str _, node, member | .arr _, node, member => by
      simp only [ofValue?, Option.toList, preorderOfAll] at member
      cases member

private theorem unlinked_ofEntries : (entries : List (String × Json)) →
    ∀ node ∈ preorderOfAll (ofEntries entries), node.info.Unlinked
  | [], node, member => by
      simp only [ofEntries, preorderOfAll] at member
      cases member
  | (key, .arr items) :: rest, node, member => by
      rw [ofEntries, preorderOfAll_append] at member
      rcases List.mem_append.1 member with inItems | later
      · exact unlinked_ofItems key items node inItems
      · exact unlinked_ofEntries rest node later
  | (key, .obj entries) :: rest, node, member => by
      rw [ofEntries, preorderOfAll_append] at member
      · rcases List.mem_append.1 member with inValue | later
        · exact unlinked_ofValue? key false (.obj entries) node inValue
        · exact unlinked_ofEntries rest node later
      · intro items same
        cases same
  | (key, .null) :: rest, node, member | (key, .bool _) :: rest, node, member
  | (key, .int _) :: rest, node, member | (key, .real _) :: rest, node, member
  | (key, .str _) :: rest, node, member => by
      simp only [ofEntries, ofValue?, Option.toList, List.nil_append] at member
      exact unlinked_ofEntries rest node member

private theorem unlinked_ofItems (key : String) : (items : List Json) →
    ∀ node ∈ preorderOfAll (ofItems key items), node.info.Unlinked
  | [], node, member => by
      simp only [ofItems, preorderOfAll] at member
      cases member
  | item :: rest, node, member => by
      rw [ofItems, preorderOfAll_append] at member
      rcases List.mem_append.1 member with inItem | later
      · exact unlinked_ofValue? key true item node inItem
      · exact unlinked_ofItems key rest node later

end

/-! ### Numbered trees -/

/-- The nodes of trees that are numbered one after the other. -/
def numbered (trees : List Node) : List Node :=
  preorderOfAll (numberAll none 0 trees)

/-- What is known of a node, apart from its numbers. -/
def unnumbered (node : Node) : NodeInfo :=
  { node.info with position := 0, parent := none }

private theorem id_eq_of_unnumbered {first second : Node}
    (same : first.unnumbered = second.unnumbered) : first.id = second.id :=
  congrArg (fun info => (info.attributes.lookup "id").getD .null) same

theorem kind_eq_of_unnumbered {first second : Node}
    (same : first.unnumbered = second.unnumbered) :
    first.kind = second.kind := by
  have sameKind := congrArg NodeInfo.kind same
  exact sameKind

theorem attributes_eq_of_unnumbered {first second : Node}
    (same : first.unnumbered = second.unnumbered) :
    first.info.attributes = second.info.attributes := by
  have sameAttributes := congrArg NodeInfo.attributes same
  exact sameAttributes

theorem map_unnumbered (trees : List Node) :
    (numbered trees).map unnumbered = (preorderOfAll trees).map unnumbered :=
  map_preorderOfAll_numberAll
    (fun info => { info with position := 0, parent := none })
    (fun _ _ _ => rfl) none 0 trees

theorem exists_of_mem_numbered {trees : List Node} {node : Node}
    (member : node ∈ numbered trees) :
    ∃ original ∈ preorderOfAll trees,
      original.unnumbered = node.unnumbered := by
  have listed := List.mem_map_of_mem member (f := unnumbered)
  rw [map_unnumbered] at listed
  exact List.mem_map.1 listed

theorem exists_mem_numbered {trees : List Node} {original : Node}
    (member : original ∈ preorderOfAll trees) :
    ∃ node ∈ numbered trees, node.unnumbered = original.unnumbered := by
  have listed := List.mem_map_of_mem member (f := unnumbered)
  rw [← map_unnumbered] at listed
  exact List.mem_map.1 listed

/-- Trees in another order have the same nodes under other numbers. -/
theorem exists_mem_numbered_of_perm {first second : List Node}
    (same : first.Perm second) {node : Node} (member : node ∈ numbered first) :
    ∃ other ∈ numbered second, other.unnumbered = node.unnumbered := by
  obtain ⟨original, isOriginal, sameInfo⟩ := exists_of_mem_numbered member
  obtain ⟨other, isOther, sameOther⟩ :=
    exists_mem_numbered ((preorderOfAll_perm same).mem_iff.1 isOriginal)
  exact ⟨other, isOther, sameOther.trans sameInfo⟩

private theorem length_numbered_of_perm {first second : List Node}
    (same : first.Perm second) :
    (numbered first).length = (numbered second).length := by
  have sameLength (trees : List Node) :
      (numbered trees).length = (preorderOfAll trees).length := by
    have listed := congrArg List.length (map_unnumbered trees)
    rw [List.length_map, List.length_map] at listed
    exact listed
  rw [sameLength, sameLength]
  exact (preorderOfAll_perm same).length_eq

private theorem positions_numbered (trees : List Node) :
    (numbered trees).map (fun node => node.info.position) =
      List.range (numbered trees).length := by
  have counted := positions_preorderOfAll_of_numbered _
    (numberedAll_numberAll none 0 trees)
  rw [numbered, counted, ← sizeOfAll_eq_length_preorderOfAll,
    List.range_eq_range']

private theorem position_of_getElem? {trees : List Node} {position : Nat}
    {node : Node}
    (found : (numbered trees)[position]? = some node) :
    node.info.position = position := by
  have counted := congrArg (fun positions => positions[position]?)
    (positions_numbered trees)
  obtain ⟨inside, -⟩ := List.getElem?_eq_some_iff.1 found
  simp only [List.getElem?_map, found, List.getElem?_range inside] at counted
  exact Option.some.inj counted

theorem getElem?_position {trees : List Node} {node : Node}
    (member : node ∈ numbered trees) :
    (numbered trees)[node.info.position]? = some node := by
  obtain ⟨position, found⟩ := List.mem_iff_getElem?.1 member
  rw [position_of_getElem? found]
  exact found

theorem unlinked_of_mem_numbered {trees : List Node}
    (unlinked : ∀ node ∈ preorderOfAll trees, node.info.Unlinked) {node : Node}
    (member : node ∈ numbered trees) : node.info.Unlinked := by
  obtain ⟨original, isOriginal, same⟩ := exists_of_mem_numbered member
  have before := unlinked original isOriginal
  constructor
  · have sameKind : original.info.kind = node.info.kind :=
      kind_eq_of_unnumbered same
    rw [← sameKind, ← attributes_eq_of_unnumbered same]
    exact before.kind
  · exact (congrArg NodeInfo.target same).symm.trans before.target
  · exact (congrArg NodeInfo.bases same).symm.trans before.bases

/-! ### Different ids -/

/-- The nodes of the trees are as they were built, and their ids are
different integers. -/
structure Separate (trees : List Node) : Prop where
  unlinked : ∀ node ∈ preorderOfAll trees, node.info.Unlinked
  integer : ∀ node ∈ preorderOfAll trees, ∃ id, node.id = .int id
  distinct : ((preorderOfAll trees).map id).Nodup

theorem Separate.of_perm {first second : List Node} (separate : Separate first)
    (same : first.Perm second) : Separate second := by
  have sameNodes := preorderOfAll_perm same
  constructor
  · intro node member
    exact separate.unlinked node (sameNodes.mem_iff.2 member)
  · intro node member
    exact separate.integer node (sameNodes.mem_iff.2 member)
  · exact (sameNodes.map id).nodup_iff.1 separate.distinct

section

variable {trees : List Node} (separate : Separate trees)
include separate

private theorem Separate.integer_numbered {node : Node}
    (member : node ∈ numbered trees) : ∃ id, node.id = .int id := by
  obtain ⟨original, isOriginal, same⟩ := exists_of_mem_numbered member
  rw [← id_eq_of_unnumbered same]
  exact separate.integer original isOriginal

private theorem Separate.eq_of_id_eq {first second : Node}
    (isFirst : first ∈ numbered trees) (isSecond : second ∈ numbered trees)
    (same : first.id = second.id) : first = second := by
  have sameIds : (numbered trees).map id = (preorderOfAll trees).map id := by
    have mapped := congrArg
      (List.map fun info : NodeInfo =>
        (info.attributes.lookup "id").getD .null)
      (map_unnumbered trees)
    rw [List.map_map, List.map_map] at mapped
    exact mapped
  have distinct : ((numbered trees).map id).Nodup := by
    rw [sameIds]
    exact separate.distinct
  exact List.inj_on_of_nodup_map distinct isFirst isSecond same

end

end Node

/-! ### Ids in the index -/

private theorem Json.eq_int_of_key? {value : Json} {id : Int} {key : Json.Key}
    (isInteger : value = .int id) (filed : value.key? = some key) :
    key = .number id := by
  rw [isInteger] at filed
  exact (Option.some.inj filed).symm

/-- Nothing is filed under null. -/
theorem Index.position?_ofNodes_null (nodes : List Node) :
    (Index.ofNodes nodes).position? .null = none := by
  induction nodes using List.reverseRecOn with
  | nil => simp [ofNodes, empty, position?]
  | append_singleton nodes node inductionHypothesis =>
      rw [ofNodes, List.foldl_append, List.foldl_cons, List.foldl_nil,
        ← ofNodes, add]
      split
      · exact inductionHypothesis
      · rename_i given
        split
        · rename_i key filed
          have proper : key ≠ .null := by
            rintro rfl
            cases isId : node.id with
            | null => exact given isId
            | bool | int | str =>
                rw [isId] at filed
                cases filed
            | arr | obj =>
                rw [isId] at filed
                cases filed
            | real number =>
                rw [isId, Json.key?] at filed
                split at filed
                · cases filed
                · cases filed
          rw [position?, Std.TreeMap.getElem?_insert,
            if_neg (by rw [Json.Key.order_eq_iff]; exact proper)]
          exact inductionHypothesis
        · exact inductionHypothesis

namespace Compilation

open Node (numbered unnumbered Separate)

/-- The index of trees that are numbered one after the other. -/
def indexFor (trees : List Node) : Index :=
  Index.ofNodes (numbered trees)

/-- Resolves the references of a node of such trees. -/
def linkIn (trees : List Node) (info : NodeInfo) : Except Fault NodeInfo :=
  link (indexFor trees) (numbered trees).toArray info

section

variable {trees : List Node} (separate : Separate trees)
include separate

/-- An id stands for the one node that carries it. -/
theorem position?_indexFor_iff {key : Json.Key} {position : Nat} :
    (indexFor trees).position? key = some position ↔
      ∃ node ∈ numbered trees, node.id.key? = some key ∧
        node.info.position = position := by
  by_cases proper : key = .null
  · subst proper
    rw [indexFor, Index.position?_ofNodes_null]
    constructor
    · intro found
      cases found
    · rintro ⟨node, member, filed, -⟩
      obtain ⟨id, isInteger⟩ := separate.integer_numbered member
      cases Json.eq_int_of_key? isInteger filed
  · rw [indexFor, Index.position?_ofNodes _ proper, Option.map_eq_some_iff]
    constructor
    · rintro ⟨node, found, atPosition⟩
      have carries := List.find?_some found
      exact ⟨node, List.mem_reverse.1 (List.mem_of_find?_eq_some found),
        of_decide_eq_true carries, atPosition⟩
    · rintro ⟨node, member, filed, atPosition⟩
      obtain ⟨id, isInteger⟩ := separate.integer_numbered member
      cases found : (numbered trees).reverse.find? fun node =>
          node.id.key? = some key with
      | none =>
          have missing := List.find?_eq_none.1 found node
            (List.mem_reverse.2 member)
          exact absurd (decide_eq_true filed) missing
      | some other =>
          have isOther := List.mem_reverse.1 (List.mem_of_find?_eq_some found)
          have carries := List.find?_some found
          have otherFiled := of_decide_eq_true carries
          obtain ⟨otherId, otherInteger⟩ := separate.integer_numbered isOther
          have sameKey := (Json.eq_int_of_key? isInteger filed).symm.trans
            (Json.eq_int_of_key? otherInteger otherFiled)
          have sameId : other.id = node.id := by
            rw [isInteger, otherInteger, Json.Key.number.inj sameKey]
          have sameNode := separate.eq_of_id_eq isOther member sameId
          exact ⟨other, rfl, by rw [sameNode]; exact atPosition⟩

private theorem position?_of_mem {node : Node} (member : node ∈ numbered trees)
    {id : Int} (isInteger : node.id = .int id) :
    (indexFor trees).position? (.number id) = some node.info.position :=
  (position?_indexFor_iff separate).2 ⟨node, member, by rw [isInteger]; rfl, rfl⟩

theorem isIndexed_of_mem {node : Node} (member : node ∈ numbered trees) :
    isIndexed (indexFor trees) node.info = true := by
  obtain ⟨id, isInteger⟩ := separate.integer_numbered member
  rw [isIndexed_iff]
  refine ⟨.number id, nofun, ?_, position?_of_mem separate member isInteger⟩
  rw [isInteger]
  rfl

end

/-! ### Numbers in two orders -/

/-- The number in the second order of the node that has a number in the
first. -/
def renumbering (first second : List Node) (position : Nat) : Nat :=
  ((numbered first)[position]?.bind fun node =>
    node.id.key?.bind (indexFor second).position?).getD position

section

variable {first second : List Node} (separate : Separate first)
  (same : first.Perm second)
include separate same

private theorem renumbering_eq {node other : Node}
    (isNode : node ∈ numbered first)
    (isOther : other ∈ numbered second) (sameId : node.id = other.id) :
    renumbering first second node.info.position = other.info.position := by
  obtain ⟨id, isInteger⟩ := separate.integer_numbered isNode
  rw [renumbering, Node.getElem?_position isNode, Option.bind_some, isInteger]
  have found := position?_of_mem (separate.of_perm same) isOther
    (sameId.symm.trans isInteger)
  simp only [Json.key?, Option.bind_some, found, Option.getD_some]

/-- An id stands for the same node in both orders. -/
theorem position?_renumbering (key : Json.Key) :
    (indexFor second).position? key =
      ((indexFor first).position? key).map (renumbering first second) := by
  have otherSeparate := separate.of_perm same
  cases found : (indexFor first).position? key with
  | some position =>
      obtain ⟨node, isNode, filed, rfl⟩ :=
        (position?_indexFor_iff separate).1 found
      obtain ⟨other, isOther, sameInfo⟩ :=
        Node.exists_mem_numbered_of_perm same isNode
      have sameId := Node.id_eq_of_unnumbered sameInfo
      rw [Option.map_some,
        renumbering_eq separate same isNode isOther sameId.symm]
      exact (position?_indexFor_iff otherSeparate).2
        ⟨other, isOther, by rw [sameId]; exact filed, rfl⟩
  | none =>
      rw [Option.map_none, Option.eq_none_iff_forall_ne_some]
      intro position exists'
      obtain ⟨other, isOther, filed, -⟩ :=
        (position?_indexFor_iff otherSeparate).1 exists'
      obtain ⟨node, isNode, sameInfo⟩ :=
        Node.exists_mem_numbered_of_perm same.symm isOther
      have sameId := Node.id_eq_of_unnumbered sameInfo
      have present := (position?_indexFor_iff separate).2
        ⟨node, isNode, by rw [sameId]; exact filed, rfl⟩
      rw [found] at present
      cases present

private theorem isContractAt_renumbering {key : Json.Key} {position : Nat}
    (found : (indexFor first).position? key = some position) :
    isContractAt (numbered second).toArray (renumbering first second position) =
      isContractAt (numbered first).toArray position := by
  obtain ⟨node, isNode, -, rfl⟩ := (position?_indexFor_iff separate).1 found
  obtain ⟨other, isOther, sameInfo⟩ :=
    Node.exists_mem_numbered_of_perm same isNode
  have sameKind := Node.kind_eq_of_unnumbered sameInfo
  rw [renumbering_eq separate same isNode isOther
    (Node.id_eq_of_unnumbered sameInfo).symm, isContractAt, isContractAt,
    List.getElem?_toArray, List.getElem?_toArray,
    Node.getElem?_position isNode, Node.getElem?_position isOther]
  dsimp only
  rw [sameKind]

/-! ### Links in two orders -/

private theorem baseCandidates_renumbering (ids : List Json) :
    baseCandidates (indexFor second) ids =
      (baseCandidates (indexFor first) ids).map
        (List.map (Option.map (renumbering first second))) := by
  induction ids with
  | nil => rfl
  | cons id rest inductionHypothesis =>
      rw [baseCandidates, baseCandidates, inductionHypothesis, Index.find?,
        Index.find?]
      cases id.key? with
      | none => rfl
      | some key =>
          simp only [position?_renumbering separate same key]
          cases baseCandidates (indexFor first) rest with
          | error fault => rfl
          | ok others => rfl

end

private theorem exists_key_of_baseCandidates {index : Index} {ids : List Json}
    {candidates : List (Option Nat)}
    (found : baseCandidates index ids = .ok candidates) {position : Nat}
    (member : some position ∈ candidates) :
    ∃ key, index.position? key = some position := by
  induction ids generalizing candidates with
  | nil =>
      cases found
      cases member
  | cons id rest inductionHypothesis =>
      rw [baseCandidates, Index.find?] at found
      cases filed : id.key? with
      | none =>
          simp only [filed] at found
          cases found
      | some key =>
          simp only [filed] at found
          cases later : baseCandidates index rest with
          | error fault =>
              simp only [later] at found
              cases found
          | ok others =>
              simp only [later] at found
              cases found
              rcases List.mem_cons.1 member with same | isLater
              · exact ⟨key, same.symm⟩
              · exact inductionHypothesis later isLater

section

variable {first second : List Node} (separate : Separate first)
  (same : first.Perm second)
include separate same

private theorem basesOf_renumbering {node other : Node}
    (isNode : node ∈ numbered first)
    (isOther : other ∈ numbered second)
    (sameInfo : other.unnumbered = node.unnumbered) :
    basesOf (indexFor second) (numbered second).toArray other.info =
      (basesOf (indexFor first) (numbered first).toArray node.info).map
        (List.map (renumbering first second)) := by
  have sameAttributes := Node.attributes_eq_of_unnumbered sameInfo
  have samePosition := renumbering_eq separate same isNode isOther
    (Node.id_eq_of_unnumbered sameInfo).symm
  rw [basesOf, basesOf, sameAttributes]
  cases ((node.info.attributes.lookup "linearizedBaseContracts").getD
      (.arr [])).items with
  | error fault => rfl
  | ok ids =>
      simp only [baseCandidates_renumbering separate same ids]
      cases found : baseCandidates (indexFor first) ids with
      | error fault => rfl
      | ok candidates =>
          have kept : ((candidates.map
                (Option.map (renumbering first second))).filterMap
                  fun position => position).filter
                (isContractAt (numbered second).toArray) =
              ((candidates.filterMap fun position => position).filter
                (isContractAt (numbered first).toArray)).map
                  (renumbering first second) := by
            have moved : (candidates.map
                  (Option.map (renumbering first second))).filterMap
                    (fun position => position) =
                (candidates.filterMap fun position => position).map
                  (renumbering first second) := by
              rw [List.filterMap_map, List.map_filterMap]
              rfl
            rw [moved, List.filter_map]
            congr 1
            apply List.filter_congr
            intro position member
            obtain ⟨candidate, isCandidate, rfl⟩ := List.mem_filterMap.1 member
            obtain ⟨key, filed⟩ := exists_key_of_baseCandidates found isCandidate
            exact isContractAt_renumbering separate same filed
          simp only [Except.map, kept, List.isEmpty_map]
          split
          · rw [List.map_singleton, samePosition]
          · rfl

private theorem targetOf_renumbering {node other : Node}
    (sameInfo : other.unnumbered = node.unnumbered) :
    targetOf (indexFor second) other.info =
      (targetOf (indexFor first) node.info).map (renumbering first second) := by
  rw [targetOf, targetOf, Node.attributes_eq_of_unnumbered sameInfo]
  cases node.info.attributes.lookup "referencedDeclaration" with
  | none => rfl
  | some reference =>
      cases whole : reference.toInt? with
      | none => simp only [whole, Option.bind_none, Option.map_none]
      | some id =>
          simp only [whole, Option.bind_some,
            position?_renumbering separate same]

/-- Linking a node in the second order is linking it in the first and renaming
what was found. -/
theorem linkIn_renumbering {node other : Node} (isNode : node ∈ numbered first)
    (isOther : other ∈ numbered second)
    (sameInfo : other.unnumbered = node.unnumbered)
    (parents :
      other.info.parent = node.info.parent.map (renumbering first second)) :
    linkIn second other.info =
      (linkIn first node.info).map
        (NodeInfo.rename (renumbering first second)) := by
  have samePosition := renumbering_eq separate same isNode isOther
    (Node.id_eq_of_unnumbered sameInfo).symm
  have bare := Node.unlinked_of_mem_numbered separate.unlinked isNode
  have otherInfo : other.info =
      { node.info with
        position := renumbering first second node.info.position
        parent := node.info.parent.map (renumbering first second) } := by
    rw [samePosition, ← parents]
    exact congrArg
      (fun info : NodeInfo =>
        { info with
          position := other.info.position
          parent := other.info.parent })
      sameInfo
  have sameKind : other.info.kind = node.info.kind :=
    Node.kind_eq_of_unnumbered sameInfo
  rw [linkIn, linkIn, link, link, if_pos (isIndexed_of_mem separate isNode),
    if_pos (isIndexed_of_mem (separate.of_perm same) isOther),
    targetOf_renumbering separate same sameInfo,
    basesOf_renumbering separate same isNode isOther sameInfo, sameKind]
  by_cases isContract : node.info.kind = .contractDefinition
  · rw [if_pos isContract, if_pos isContract]
    cases basesOf (indexFor first) (numbered first).toArray node.info with
    | error fault => rfl
    | ok bases =>
        simp only [Except.map, NodeInfo.rename, otherInfo]
  · rw [if_neg isContract, if_neg isContract]
    simp only [Except.map, NodeInfo.rename, otherInfo, bare.bases,
      List.map_nil]

end

mutual

/-- Linking a whole tree in the second order. -/
theorem mapInfo_renumbering {first second : List Node}
    (separate : Separate first) (same : first.Perm second)
    (parent : Option Nat) (start other : Nat) :
    (tree : Node) →
    (∀ node ∈ (Node.number parent start tree).preorder,
      node ∈ numbered first) →
    (∀ node ∈ (Node.number (parent.map (renumbering first second)) other
        tree).preorder, node ∈ numbered second) →
    Node.mapInfo (linkIn second)
        (Node.number (parent.map (renumbering first second)) other tree) =
      (Node.mapInfo (linkIn first) (Node.number parent start tree)).map
        (Node.rename (renumbering first second))
  | .mk info children, inFirst, inSecond => by
      rw [Node.number, Node.preorder] at inFirst inSecond
      have isNode := inFirst _ List.mem_cons_self
      have isOther := inSecond _ List.mem_cons_self
      have linked := linkIn_renumbering separate same isNode isOther rfl rfl
      have moved : renumbering first second start = other :=
        renumbering_eq separate same isNode isOther rfl
      have below := mapInfoAll_renumbering separate same (some start)
        (start + 1) (other + 1) children
        (fun node member => inFirst node (List.mem_cons_of_mem _ member))
        (by
          rw [Option.map_some, moved]
          exact fun node member =>
            inSecond node (List.mem_cons_of_mem _ member))
      rw [Option.map_some, moved] at below
      simp only [Node.info] at linked
      rw [Node.number, Node.number, Node.mapInfo, Node.mapInfo, linked, below]
      cases linkIn first
          { info with position := start, parent := parent } with
      | error fault => rfl
      | ok changed =>
          cases Node.mapInfoAll (linkIn first)
              (Node.numberAll (some start) (start + 1) children) with
          | error fault => rfl
          | ok changedBelow => simp only [Except.map, Node.rename]

private theorem mapInfoAll_renumbering {first second : List Node}
    (separate : Separate first) (same : first.Perm second)
    (parent : Option Nat) (start other : Nat) :
    (trees : List Node) →
    (∀ node ∈ Node.preorderOfAll (Node.numberAll parent start trees),
      node ∈ numbered first) →
    (∀ node ∈ Node.preorderOfAll
        (Node.numberAll (parent.map (renumbering first second)) other trees),
      node ∈ numbered second) →
    Node.mapInfoAll (linkIn second)
        (Node.numberAll (parent.map (renumbering first second)) other trees) =
      (Node.mapInfoAll (linkIn first)
        (Node.numberAll parent start trees)).map
          (Node.renameAll (renumbering first second))
  | [], _, _ => by
      simp only [Node.numberAll, Node.mapInfoAll, Except.map, Node.renameAll]
  | tree :: rest, inFirst, inSecond => by
      rw [Node.numberAll, Node.preorderOfAll] at inFirst inSecond
      have here := mapInfo_renumbering separate same parent start other tree
        (fun node member => inFirst node (List.mem_append_left _ member))
        (fun node member => inSecond node (List.mem_append_left _ member))
      have later := mapInfoAll_renumbering separate same parent
        (start + tree.size) (other + tree.size) rest
        (fun node member => inFirst node (List.mem_append_right _ member))
        (fun node member => inSecond node (List.mem_append_right _ member))
      rw [Node.numberAll, Node.numberAll, Node.mapInfoAll, Node.mapInfoAll,
        here, later]
      cases Node.mapInfo (linkIn first) (Node.number parent start tree) with
      | error fault => rfl
      | ok changed =>
          cases Node.mapInfoAll (linkIn first)
              (Node.numberAll parent (start + tree.size) rest) with
          | error fault => rfl
          | ok others => simp only [Except.map, Node.renameAll]

end

/-! ### Compilations in two orders -/

/-- The tree of a compilation that a built tree became. -/
def Becomes (trees : List Node) (tree linked : Node) : Prop :=
  ∃ start,
    (∀ node ∈ (Node.number none start tree).preorder,
      node ∈ numbered trees) ∧
    Node.mapInfo (linkIn trees) (Node.number none start tree) = .ok linked

private theorem forall₂_becomes {trees : List Node} {start : Nat}
    {rest linked : List Node}
    (inside : ∀ node ∈ Node.preorderOfAll (Node.numberAll none start rest),
      node ∈ numbered trees)
    (succeeds :
      Node.mapInfoAll (linkIn trees) (Node.numberAll none start rest) =
        .ok linked) :
    List.Forall₂ (Becomes trees) rest linked := by
  induction rest generalizing start linked with
  | nil =>
      rw [Node.numberAll, Node.mapInfoAll] at succeeds
      cases succeeds
      exact .nil
  | cons tree rest inductionHypothesis =>
      rw [Node.numberAll] at succeeds
      rw [Node.numberAll, Node.preorderOfAll] at inside
      obtain ⟨first, others, here, later, rfl⟩ :=
        Node.mapInfoAll_cons_eq_ok succeeds
      refine .cons ⟨start, ?_, here⟩ (inductionHypothesis ?_ later)
      · intro node member
        exact inside node (List.mem_append_left _ member)
      · intro node member
        exact inside node (List.mem_append_right _ member)

private theorem Becomes.eq_rename {first second : List Node}
    (separate : Separate first) (same : first.Perm second)
    {tree linked other : Node} (here : Becomes first tree linked)
    (there : Becomes second tree other) :
    other = linked.rename (renumbering first second) := by
  obtain ⟨start, inFirst, succeeds⟩ := here
  obtain ⟨otherStart, inSecond, otherSucceeds⟩ := there
  have moved := mapInfo_renumbering separate same none start otherStart tree
    inFirst inSecond
  rw [Option.map_none, succeeds, otherSucceeds] at moved
  exact Except.ok.inj moved

theorem exists_linked_of_ofUnits {units : List (Node × String)}
    {compilation : Compilation} (succeeds : ofUnits units = .ok compilation) :
    ∃ linked,
      Node.mapInfoAll (linkIn (units.map fun unit => unit.1))
          (Node.numberAll none 0 (units.map fun unit => unit.1)) =
        .ok linked ∧
      compilation.units =
        linked.zipWith (fun root unit => { root := root, content := unit.2 })
          units := by
  rw [ofUnits] at succeeds
  split at succeeds
  · cases succeeds
  · rename_i linked found
    rw [linkAll] at found
    split at found
    · cases found
    · cases succeeds
      exact ⟨linked, found, rfl⟩

/-- The compilation holds these trees, numbered and linked. -/
def OfTrees (compilation : Compilation) (trees : List Node) : Prop :=
  ∃ units, units.map (fun unit => unit.1) = trees ∧
    ofUnits units = .ok compilation

theorem OfTrees.linkedFrom {compilation : Compilation} {trees : List Node}
    (made : compilation.OfTrees trees) :
    compilation.LinkedFrom (numbered trees) := by
  obtain ⟨units, rfl, succeeds⟩ := made
  exact linkedFrom_of_ofUnits succeeds

private theorem OfTrees.size_nodes {compilation : Compilation}
    {trees : List Node}
    (made : compilation.OfTrees trees) :
    compilation.nodes.size = (numbered trees).length := by
  obtain ⟨nodes, paired⟩ := made.linkedFrom.paired
  rw [← Array.length_toList, made.linkedFrom.listed, ← paired.length_eq]

theorem OfTrees.mapInfoAll_linkIn {compilation : Compilation} {trees : List Node}
    (made : compilation.OfTrees trees) :
    Node.mapInfoAll (linkIn trees) (Node.numberAll none 0 trees) =
      .ok (compilation.units.map fun unit => unit.root) := by
  obtain ⟨units, rfl, succeeds⟩ := made
  obtain ⟨linked, found, listed⟩ := exists_linked_of_ofUnits succeeds
  have sameLength := Node.length_of_mapInfoAll found
  rw [Node.length_numberAll, List.length_map] at sameLength
  have sameRoots : compilation.units.map (fun unit => unit.root) = linked := by
    rw [listed, List.map_zipWith]
    apply List.ext_getElem
    · simp [sameLength]
    · simp
  rw [sameRoots]
  exact found

theorem OfTrees.becomes {compilation : Compilation} {trees : List Node}
    (made : compilation.OfTrees trees) :
    List.Forall₂ (Becomes trees) trees
      (compilation.units.map fun unit => unit.root) :=
  forall₂_becomes (fun _ member => member) made.mapInfoAll_linkIn

/-- Each node of the trees was linked to a node of the compilation. -/
theorem OfTrees.paired {compilation : Compilation} {trees : List Node}
    (made : compilation.OfTrees trees) :
    List.Forall₂
      (fun before after => linkIn trees before.info = .ok after.info)
      (numbered trees) compilation.visited := by
  rw [visited_eq_preorderOfAll]
  exact Node.forall₂_preorder_of_mapInfoAll _ _ made.mapInfoAll_linkIn

private theorem LinkedFrom.position_of_nodeAt? {compilation : Compilation}
    {before : List Node} (linked : compilation.LinkedFrom before)
    {position : Nat} {node : Node}
    (found : compilation.nodeAt? position = some node) :
    node.info.position = position := by
  rw [nodeAt?, ← Array.getElem?_toList, linked.listed] at found
  obtain ⟨inside, -⟩ := List.getElem?_eq_some_iff.1 found
  have counted := congrArg (fun positions => positions[position]?)
    linked.positions
  simp only [List.getElem?_map, found, List.getElem?_range inside] at counted
  exact Option.some.inj counted

section

variable {trees others : List Node} {first second : Compilation}
  (separate : Separate trees) (same : trees.Perm others)
  (made : first.OfTrees trees) (otherMade : second.OfTrees others)
include separate same made otherMade

/-- The nodes of a tree of one compilation are found in the other under their
new numbers. -/
theorem nodeAt?_renumbering {node : Node} (visited : node ∈ first.visited) :
    second.nodeAt? (renumbering trees others node.info.position) =
      some (node.rename (renumbering trees others)) := by
  rw [visited_eq_preorderOfAll, Node.preorderOfAll_eq_flatMap] at visited
  obtain ⟨root, isRoot, below⟩ := List.mem_flatMap.1 visited
  obtain ⟨tree, isTree, becomes⟩ := exists_left_of_forall₂ made.becomes isRoot
  obtain ⟨other, isOther, otherBecomes⟩ :=
    exists_right_of_forall₂ otherMade.becomes (same.mem_iff.1 isTree)
  have renamedVisited :
      node.rename (renumbering trees others) ∈ second.visited := by
    rw [visited_eq_preorderOfAll, Node.preorderOfAll_eq_flatMap]
    refine List.mem_flatMap.2 ⟨other, isOther, ?_⟩
    rw [becomes.eq_rename separate same otherBecomes, Node.preorder_rename]
    exact List.mem_map_of_mem below
  have present := otherMade.linkedFrom.nodeAt?_of_mem renamedVisited
  rw [Node.info_rename] at present
  exact present

/-- The nodes of the second compilation are those of the first under new
numbers. -/
theorem renamesTo_of_perm :
    first.RenamesTo second (renumbering trees others) := by
  have linked := made.linkedFrom
  intro position
  cases found : first.nodeAt? position with
  | some node =>
      have visited := linked.mem_visited_of_nodeAt? found
      rw [← linked.position_of_nodeAt? found]
      exact nodeAt?_renumbering separate same made otherMade visited
  | none =>
      have outside : (numbered trees).length ≤ position := by
        rw [← made.size_nodes]
        exact Array.getElem?_eq_none_iff.1 found
      have unmoved : renumbering trees others position = position := by
        rw [renumbering, List.getElem?_eq_none outside]
        rfl
      rw [Node.length_numbered_of_perm same, ← otherMade.size_nodes] at outside
      rw [unmoved, Option.map_none, nodeAt?]
      exact Array.getElem?_eq_none outside

/-- Trees have the same view in both orders. -/
theorem view_eq_of_perm {tree linked other : Node}
    (becomes : Becomes trees tree linked)
    (otherBecomes : Becomes others tree other) :
    second.view other = first.view linked := by
  rw [becomes.eq_rename separate same otherBecomes]
  exact (renamesTo_of_perm separate same made otherMade).view_rename linked

end

end Compilation

end ContractAtlas
