/-
Trees that can be read.

A tree becomes a unit exactly when the types of its nodes and its path can be
looked up, and units can be linked exactly when the bases of their contracts
can.  Neither depends on where the tree stands among the others.
-/

import ContractAtlas.Proofs.Source.Order

namespace ContractAtlas

/-! ### What can be linked -/

/-- The base contracts of a node can be looked up. -/
def HasBases (attributes : List (String × Json)) : Prop :=
  ∃ ids,
    ((attributes.lookup "linearizedBaseContracts").getD (.arr [])).items =
        .ok ids ∧
      ∀ id ∈ ids, ∃ key, id.key? = some key

namespace Compilation

open Node (numbered Separate)

theorem exists_baseCandidates_iff {index : Index} {ids : List Json} :
    (∃ candidates, baseCandidates index ids = .ok candidates) ↔
      ∀ id ∈ ids, ∃ key, id.key? = some key := by
  induction ids with
  | nil => exact ⟨fun _ => nofun, fun _ => ⟨[], rfl⟩⟩
  | cons id rest inductionHypothesis =>
      rw [List.forall_mem_cons, ← inductionHypothesis]
      rw [baseCandidates, Index.find?]
      cases id.key? with
      | none =>
          constructor
          · rintro ⟨candidates, failed⟩
            cases failed
          · rintro ⟨⟨key, failed⟩, -⟩
            cases failed
      | some key =>
          cases baseCandidates index rest with
          | error fault =>
              constructor
              · rintro ⟨candidates, failed⟩
                cases failed
              · rintro ⟨-, others, failed⟩
                cases failed
          | ok others => exact ⟨fun _ => ⟨⟨key, rfl⟩, others, rfl⟩,
              fun _ => ⟨_, rfl⟩⟩

theorem exists_basesOf_iff {index : Index} {nodes : Array Node}
    {info : NodeInfo} :
    (∃ bases, basesOf index nodes info = .ok bases) ↔
      HasBases info.attributes := by
  rw [basesOf, HasBases]
  cases ((info.attributes.lookup "linearizedBaseContracts").getD
      (.arr [])).items with
  | error fault =>
      constructor
      · rintro ⟨bases, failed⟩
        cases failed
      · rintro ⟨ids, failed, -⟩
        cases failed
  | ok ids =>
      simp only [Except.ok.injEq, exists_eq_left']
      rw [← exists_baseCandidates_iff]
      cases baseCandidates index ids with
      | error fault =>
          constructor
          · rintro ⟨bases, failed⟩
            cases failed
          · rintro ⟨candidates, failed⟩
            cases failed
      | ok candidates => exact ⟨fun _ => ⟨candidates, rfl⟩, fun _ => ⟨_, rfl⟩⟩

theorem exists_link_iff {index : Index} {nodes : Array Node}
    {info : NodeInfo} :
    (∃ changed, link index nodes info = .ok changed) ↔
      (isIndexed index info = true → info.kind = .contractDefinition →
        HasBases info.attributes) := by
  rw [link]
  by_cases indexed : isIndexed index info = true
  · rw [if_pos indexed]
    by_cases isContract : info.kind = .contractDefinition
    · rw [if_pos isContract, ← exists_basesOf_iff]
      cases basesOf index nodes info with
      | error fault =>
          constructor
          · rintro ⟨changed, failed⟩
            cases failed
          · intro hasBases
            obtain ⟨bases, failed⟩ := hasBases indexed isContract
            cases failed
      | ok bases => exact ⟨fun _ _ _ => ⟨bases, rfl⟩, fun _ => ⟨_, rfl⟩⟩
    · rw [if_neg isContract]
      exact ⟨fun _ _ contract => absurd contract isContract, fun _ => ⟨_, rfl⟩⟩
  · rw [if_neg indexed]
    exact ⟨fun _ isFiled => absurd isFiled indexed, fun _ => ⟨_, rfl⟩⟩

private theorem holder?_of_isIndexed {trees : List Node} {node : Node}
    (member : node ∈ numbered trees)
    (indexed : isIndexed (indexFor trees) node.info = true) :
    holder? (indexFor trees) (numbered trees).toArray node = some node := by
  obtain ⟨key, -, filed, found⟩ := isIndexed_iff.1 indexed
  rw [holder?, filed]
  dsimp only
  rw [found, Option.bind_some, List.getElem?_toArray,
    Node.getElem?_position member]

/-- Every fault of linking is the fault of one node. -/
theorem linkFault?_cases (index : Index) (nodes : Array Node)
    (visited : List Node) :
    (linkFault? index nodes visited = none ∧
        ∀ node ∈ visited, ∀ holder, holder? index nodes node = some holder →
          ∃ changed, link index nodes holder.info = .ok changed) ∨
      ∃ fault node holder, linkFault? index nodes visited = some fault ∧
        holder? index nodes node = some holder ∧
        link index nodes holder.info = .error fault := by
  induction visited with
  | nil => exact Or.inl ⟨rfl, fun _ member => by cases member⟩
  | cons node rest inductionHypothesis =>
      rw [linkFault?]
      cases held : holder? index nodes node with
      | none =>
          dsimp only
          rcases inductionHypothesis with ⟨noFault, linkable⟩ | faulty
          · refine Or.inl ⟨noFault, List.forall_mem_cons.2 ⟨?_, linkable⟩⟩
            intro holder isHolder
            rw [held] at isHolder
            cases isHolder
          · exact Or.inr faulty
      | some holder =>
          dsimp only
          cases linked : link index nodes holder.info with
          | error fault =>
              exact Or.inr ⟨fault, node, holder, rfl, held, linked⟩
          | ok changed =>
              dsimp only
              rcases inductionHypothesis with ⟨noFault, linkable⟩ | faulty
              · refine Or.inl ⟨noFault, List.forall_mem_cons.2 ⟨?_, linkable⟩⟩
                intro other isHolder
                rw [held] at isHolder
                cases isHolder
                exact ⟨changed, linked⟩
              · exact Or.inr faulty

end Compilation

namespace Node

mutual

private theorem exists_mapInfo {change : NodeInfo → Except Fault NodeInfo} :
    (node : Node) →
    (∀ other ∈ node.preorder, ∃ changed, change other.info = .ok changed) →
      ∃ changed, mapInfo change node = .ok changed
  | mk info below, succeeds => by
      rw [preorder] at succeeds
      obtain ⟨changed, here⟩ := succeeds _ List.mem_cons_self
      obtain ⟨changedBelow, later⟩ := exists_mapInfoAll below
        fun other member => succeeds other (List.mem_cons_of_mem _ member)
      rw [Node.info] at here
      exact ⟨mk changed changedBelow, by rw [mapInfo, here, later]⟩

private theorem exists_mapInfoAll {change : NodeInfo → Except Fault NodeInfo} :
    (nodes : List Node) →
    (∀ other ∈ preorderOfAll nodes,
      ∃ changed, change other.info = .ok changed) →
      ∃ changed, mapInfoAll change nodes = .ok changed
  | [], _ => ⟨[], by rw [mapInfoAll]⟩
  | node :: rest, succeeds => by
      rw [preorderOfAll] at succeeds
      obtain ⟨changed, here⟩ := exists_mapInfo node
        fun other member => succeeds other (List.mem_append_left _ member)
      obtain ⟨others, later⟩ := exists_mapInfoAll rest
        fun other member => succeeds other (List.mem_append_right _ member)
      exact ⟨changed :: others, by rw [mapInfoAll, here, later]⟩

end

end Node

namespace Compilation

open Node (numbered Separate)

/-- Trees can be linked exactly when each of their nodes can. -/
theorem ofUnits_cases (units : List (Node × String)) :
    ((∃ compilation, ofUnits units = .ok compilation) ∧
        ∀ node ∈ numbered (units.map fun unit => unit.1),
          ∃ changed, linkIn (units.map fun unit => unit.1) node.info =
            .ok changed) ∨
      ∃ fault, ofUnits units = .error fault ∧
        ∃ node ∈ numbered (units.map fun unit => unit.1),
          linkIn (units.map fun unit => unit.1) node.info = .error fault := by
  generalize isTrees : units.map (fun unit => unit.1) = trees
  have linking : ofUnits units =
      (linkAll (indexFor trees) (numbered trees)
          (Node.numberAll none 0 trees)).map fun linked =>
        { units :=
            linked.zipWith (fun root unit => { root := root, content := unit.2 })
              units
          nodes := (Node.preorderOfAll linked).toArray
          index := indexFor trees } := by
    rw [ofUnits, isTrees, indexFor, numbered]
    cases linkAll _ _ _ with
    | error fault => rfl
    | ok linked => rfl
  rw [linking, linkAll]
  rcases linkFault?_cases (indexFor trees) (numbered trees).toArray
      (numbered trees) with ⟨noFault, linkable⟩ | faulty
  · have links : ∀ node ∈ numbered trees,
        ∃ changed, linkIn trees node.info = .ok changed := by
      intro node member
      cases indexed : isIndexed (indexFor trees) node.info with
      | true =>
          exact linkable node member node (holder?_of_isIndexed member indexed)
      | false =>
          rw [linkIn, exists_link_iff, indexed]
          intro impossible
          cases impossible
    obtain ⟨linked, found⟩ := Node.exists_mapInfoAll _ links
    refine Or.inl ⟨?_, links⟩
    rw [noFault]
    dsimp only
    rw [show link (indexFor trees) (numbered trees).toArray = linkIn trees
      from rfl, found]
    exact ⟨_, rfl⟩
  · obtain ⟨fault, node, holder, found, held, failed⟩ := faulty
    refine Or.inr ⟨fault, ?_, holder, ?_, failed⟩
    · rw [found]
      rfl
    · rw [holder?] at held
      split at held
      · obtain ⟨position, -, inside⟩ := Option.bind_eq_some_iff.1 held
        rw [List.getElem?_toArray] at inside
        exact List.mem_of_getElem? inside
      · cases held

theorem exists_ofUnits_iff_linkable {units : List (Node × String)} :
    (∃ compilation, ofUnits units = .ok compilation) ↔
      ∀ node ∈ numbered (units.map fun unit => unit.1),
        ∃ changed, linkIn (units.map fun unit => unit.1) node.info =
          .ok changed := by
  rcases ofUnits_cases units with ⟨succeeds, linkable⟩ |
    ⟨fault, failed, node, member, unlinkable⟩
  · exact ⟨fun _ => linkable, fun _ => succeeds⟩
  · constructor
    · rintro ⟨compilation, succeeds⟩
      rw [failed] at succeeds
      cases succeeds
    · intro linkable
      obtain ⟨changed, linked⟩ := linkable node member
      rw [unlinkable] at linked
      cases linked

/-- Trees with different ids can be linked exactly when the bases of their
contracts can be looked up. -/
theorem exists_ofUnits_iff {units : List (Node × String)}
    (separate : Separate (units.map fun unit => unit.1)) :
    (∃ compilation, ofUnits units = .ok compilation) ↔
      ∀ node ∈ Node.preorderOfAll (units.map fun unit => unit.1),
        node.kind = .contractDefinition → HasBases node.info.attributes := by
  rw [exists_ofUnits_iff_linkable]
  constructor
  · intro linkable node member
    obtain ⟨other, isOther, sameInfo⟩ := Node.exists_mem_numbered member
    rw [← Node.attributes_eq_of_unnumbered sameInfo,
      ← Node.kind_eq_of_unnumbered sameInfo]
    exact exists_link_iff.1 (linkable other isOther)
      (isIndexed_of_mem separate isOther)
  · intro hasBases node member
    obtain ⟨original, isOriginal, sameInfo⟩ :=
      Node.exists_of_mem_numbered member
    rw [linkIn, exists_link_iff]
    intro _ isContract
    rw [← Node.attributes_eq_of_unnumbered sameInfo]
    apply hasBases original isOriginal
    rw [Node.kind_eq_of_unnumbered sameInfo]
    exact isContract

end Compilation

/-! ### Units -/

theorem Node.attributes_of_ofValue? {field : String} {listed : Bool}
    {fields : List (String × Json)} {node : Node}
    (built : Node.ofValue? field listed (.obj fields) = some node) :
    node.info.attributes = fields := by
  rw [Node.ofValue?] at built
  split at built
  · cases built
    rfl
  · cases built

namespace Reading

open Node (Separate)

/-- The nodes of an entry and its path can be looked up. -/
structure Filable (entry : String × Json) : Prop where
  nodeTypes : ∀ object ∈ entry.2.nodeObjects,
    ∃ key, ((object.lookup "nodeType").getD (.str "")).key? = some key
  path : ∀ fields, entry.2 = .obj fields →
    ∃ key, ((fields.lookup "absolutePath").getD (.str "")).key? = some key

/-- The trees of source entries can be read. -/
structure Readable (entries : List (String × Json)) : Prop where
  filable : ∀ entry ∈ entries, Filable entry
  bases : ∀ object ∈ entries.flatMap fun entry => entry.2.nodeObjects,
    Kind.ofNodeType ((object.lookup "nodeType").getD (.str "")) =
        .contractDefinition →
      HasBases object

/-- Each entry is the tree of a source unit, no path is the name of a part of
compiler output, and the ids of all nodes are different integers. -/
structure Sources (entries : List (String × Json)) : Prop where
  unreserved : ∀ entry ∈ entries, entry.1 ∉ ["input", "output", "sources"]
  roots : ∀ entry ∈ entries, ∃ fields, entry.2 = .obj fields ∧
    fields.lookup "nodeType" = some (.str "SourceUnit")
  integer : ∀ object ∈ entries.flatMap fun entry => entry.2.nodeObjects,
    ∃ id, object.lookup "id" = some (.int id)
  distinct :
    ((entries.flatMap fun entry => entry.2.nodeObjects).map fun object =>
      (object.lookup "id").getD .null).Nodup

theorem Readable.of_perm {entries order : List (String × Json)}
    (readable : Readable entries) (same : order.Perm entries) :
    Readable order := by
  constructor
  · intro entry member
    exact readable.filable entry (same.mem_iff.1 member)
  · intro object member
    exact readable.bases object
      ((same.flatMap_right fun entry => entry.2.nodeObjects).mem_iff.1 member)

theorem Sources.of_perm {entries order : List (String × Json)}
    (sources : Sources entries) (same : order.Perm entries) :
    Sources order := by
  have sameObjects := same.flatMap_right fun entry => entry.2.nodeObjects
  constructor
  · intro entry member
    exact sources.unreserved entry (same.mem_iff.1 member)
  · intro entry member
    exact sources.roots entry (same.mem_iff.1 member)
  · intro object member
    exact sources.integer object (sameObjects.mem_iff.1 member)
  · exact (sameObjects.map _).nodup_iff.2 sources.distinct

/-- The trees of source entries. -/
def treesIn (entries : List (String × Json)) : List Node :=
  entries.filterMap fun entry => Node.ofValue? "" false entry.2

private theorem preorderOfAll_treesIn (entries : List (String × Json)) :
    Node.preorderOfAll (treesIn entries) =
      entries.flatMap fun entry =>
        Node.preorderOfAll (Node.ofValue? "" false entry.2).toList := by
  induction entries with
  | nil => rw [treesIn, List.filterMap_nil, Node.preorderOfAll, List.flatMap_nil]
  | cons entry rest inductionHypothesis =>
      rw [List.flatMap_cons, ← inductionHypothesis, treesIn,
        List.filterMap_cons, treesIn, ← Node.preorderOfAll_append]
      cases Node.ofValue? "" false entry.2 with
      | none => rfl
      | some tree => rfl

theorem attributes_treesIn (entries : List (String × Json)) :
    ((Node.preorderOfAll (treesIn entries)).map
        fun node => node.info.attributes).Perm
      (entries.flatMap fun entry => entry.2.nodeObjects) := by
  rw [preorderOfAll_treesIn, List.map_flatMap]
  apply List.Perm.flatMap_left
  intro entry _
  have origins := (Node.origins_ofValue? "" false entry.2).map Prod.fst
  rw [List.map_map, List.map_map] at origins
  simpa [Function.comp_def, Node.origin] using origins

theorem attributes_of_built {value : Json} {tree : Node}
    (built : Node.ofValue? "" false value = some tree) :
    (tree.preorder.map fun node => node.info.attributes).Perm
      value.nodeObjects := by
  have sameObjects := attributes_treesIn [("", value)]
  rw [treesIn, List.filterMap_cons, built, List.filterMap_nil,
    List.flatMap_singleton, Node.preorderOfAll, Node.preorderOfAll,
    List.append_nil] at sameObjects
  exact sameObjects

theorem unlinked_treesIn (entries : List (String × Json)) :
    ∀ node ∈ Node.preorderOfAll (treesIn entries), node.info.Unlinked := by
  intro node member
  rw [preorderOfAll_treesIn] at member
  obtain ⟨entry, -, inTree⟩ := List.mem_flatMap.1 member
  exact Node.unlinked_ofValue? "" false entry.2 node inTree

theorem Sources.separate {entries : List (String × Json)}
    (sources : Sources entries) : Separate (treesIn entries) := by
  have sameObjects := attributes_treesIn entries
  constructor
  · exact unlinked_treesIn entries
  · intro node member
    obtain ⟨id, isInteger⟩ := sources.integer node.info.attributes
      (sameObjects.mem_iff.1 (List.mem_map_of_mem member))
    refine ⟨id, ?_⟩
    rw [Node.id, Node.attributeOr, Node.attribute?, isInteger]
    rfl
  · have sameIds := sameObjects.map fun object =>
      (object.lookup "id").getD .null
    rw [List.map_map] at sameIds
    exact sameIds.nodup_iff.2 sources.distinct

/-- Without file contents a unit has none, if its path can be looked up. -/
theorem contentFor_eq_ok_iff {path content : String} {root : Node} :
    contentFor [] path root = .ok content ↔
      content = "" ∧ ∃ key, (root.textOr "absolutePath" "").key? = some key := by
  have given : (!(([] : List (String × String)).lookup path |>.getD "").isEmpty)
      = false := rfl
  rw [contentFor]
  simp only [given, Bool.false_eq_true, if_false]
  cases root.textOr "absolutePath" "" with
  | str own =>
      simp only [List.lookup_nil, Option.getD_none, Except.ok.injEq, Json.key?]
      constructor
      · intro same
        exact ⟨same.symm, _, rfl⟩
      · intro same
        exact same.1.symm
  | null | bool | int | real | arr | obj =>
      dsimp only
      split
      · rename_i key filed
        simp only [Except.ok.injEq, filed]
        constructor
        · intro same
          exact ⟨same.symm, _, rfl⟩
        · intro same
          exact same.1.symm
      · rename_i unfiled
        constructor
        · intro failed
          cases failed
        · rintro ⟨-, key, filed⟩
          rw [unfiled] at filed
          cases filed

theorem nodeFault?_eq_none_iff {node : Node} :
    nodeFault? node = none ↔
      (∃ key, node.nodeType.key? = some key) ∧
        ∃ key, node.id.key? = some key := by
  rw [nodeFault?]
  cases node.nodeType.key? with
  | none =>
      constructor
      · intro failed
        cases failed
      · rintro ⟨⟨key, failed⟩, -⟩
        cases failed
  | some typeKey =>
      cases node.id.key? with
      | none =>
          constructor
          · intro failed
            cases failed
          · rintro ⟨-, key, failed⟩
            cases failed
      | some idKey => exact ⟨fun _ => ⟨⟨typeKey, rfl⟩, idKey, rfl⟩, fun _ => rfl⟩

/-- The unit of an entry is its tree, if the types of its nodes and its path
can be looked up. -/
theorem unitOf_eq_ok_iff {path : String} {fields : List (String × Json)}
    {tree : Node} {unit : Node × String}
    (isUnit : fields.lookup "nodeType" = some (.str "SourceUnit"))
    (built : Node.ofValue? "" false (.obj fields) = some tree)
    (integer : ∀ node ∈ tree.preorder, ∃ id, node.id = .int id) :
    unitOf [] path (.obj fields) = .ok unit ↔
      unit = (tree, "") ∧
        (∀ node ∈ tree.preorder, ∃ key, node.nodeType.key? = some key) ∧
        ∃ key, ((fields.lookup "absolutePath").getD (.str "")).key? =
          some key := by
  have ownPath : tree.textOr "absolutePath" "" =
      (fields.lookup "absolutePath").getD (.str "") := by
    rw [Node.textOr, Node.attributeOr, Node.attribute?,
      Node.attributes_of_ofValue? built]
  have isRoot : tree.kind = .sourceUnit := by
    rw [Node.ofValue?, isUnit] at built
    cases built
    rfl
  have filed : tree.preorder.findSome? nodeFault? = none ↔
      ∀ node ∈ tree.preorder, ∃ key, node.nodeType.key? = some key := by
    rw [List.findSome?_eq_none_iff]
    apply forall₂_congr
    intro node member
    obtain ⟨id, isInteger⟩ := integer node member
    rw [nodeFault?_eq_none_iff, isInteger]
    exact and_iff_left ⟨_, rfl⟩
  rw [unitOf, built, ← filed, ← ownPath]
  dsimp only
  rw [if_pos isRoot]
  cases tree.preorder.findSome? nodeFault? with
  | some fault =>
      constructor
      · intro failed
        cases failed
      · rintro ⟨-, failed, -⟩
        cases failed
  | none =>
      dsimp only
      split
      · rename_i fault failed
        constructor
        · intro contradicts
          cases contradicts
        · rintro ⟨-, -, hasPath⟩
          rw [contentFor_eq_ok_iff.2 ⟨rfl, hasPath⟩] at failed
          cases failed
      · rename_i content found
        obtain ⟨rfl, hasPath⟩ := contentFor_eq_ok_iff.1 found
        constructor
        · intro same
          exact ⟨(Except.ok.inj same).symm, rfl, hasPath⟩
        · rintro ⟨rfl, -, -⟩
          rfl

theorem unitsOf_eq_ok_iff {contents : List (String × String)}
    {entries : List (String × Json)} {units : List (Node × String)} :
    unitsOf contents entries = .ok units ↔
      List.Forall₂ (fun entry unit => unitOf contents entry.1 entry.2 = .ok unit)
        entries units := by
  induction entries generalizing units with
  | nil =>
      rw [unitsOf, List.forall₂_nil_left_iff]
      exact ⟨fun same => (Except.ok.inj same).symm, fun same => by rw [same]⟩
  | cons entry rest inductionHypothesis =>
      obtain ⟨path, tree⟩ := entry
      rw [unitsOf, List.forall₂_cons_left_iff]
      cases unitOf contents path tree with
      | error fault =>
          constructor
          · intro failed
            cases failed
          · rintro ⟨unit, others, failed, -⟩
            cases failed
      | ok unit =>
          dsimp only
          cases later : unitsOf contents rest with
          | error fault =>
              constructor
              · intro failed
                cases failed
              · rintro ⟨first, others, -, built, -⟩
                rw [← inductionHypothesis, later] at built
                cases built
          | ok others =>
              constructor
              · intro same
                cases same
                exact ⟨unit, others, rfl, inductionHypothesis.1 later, rfl⟩
              · rintro ⟨first, found, same, built, rfl⟩
                rw [← inductionHypothesis, later] at built
                cases same
                cases built
                rfl

theorem map_tree_of_unitsOf {contents : List (String × String)}
    {entries : List (String × Json)} {units : List (Node × String)}
    (built : unitsOf contents entries = .ok units) :
    (units.map fun unit => unit.1) = treesIn entries := by
  rw [unitsOf_eq_ok_iff] at built
  induction built with
  | nil => rfl
  | cons made _ inductionHypothesis =>
      rw [List.map_cons, inductionHypothesis, treesIn, treesIn,
        List.filterMap_cons, ofValue?_of_unitOf made]

section

variable {entries : List (String × Json)} (sources : Sources entries)
include sources

theorem Sources.exists_tree {entry : String × Json} (member : entry ∈ entries) :
    ∃ tree, Node.ofValue? "" false entry.2 = some tree := by
  obtain ⟨fields, isObject, isUnit⟩ := sources.roots entry member
  rw [isObject, Node.ofValue?, isUnit]
  exact ⟨_, rfl⟩

theorem Sources.map_some_treesIn :
    (treesIn entries).map some =
      entries.map fun entry => Node.ofValue? "" false entry.2 := by
  have built := fun entry (member : entry ∈ entries) =>
    sources.exists_tree member
  clear sources
  induction entries with
  | nil => rfl
  | cons entry rest inductionHypothesis =>
      obtain ⟨tree, isTree⟩ := built entry List.mem_cons_self
      have later := inductionHypothesis fun other member =>
        built other (List.mem_cons_of_mem entry member)
      rw [treesIn] at later
      rw [treesIn, List.filterMap_cons, isTree, List.map_cons, List.map_cons,
        isTree, later]

private theorem Sources.unitOf_eq_ok_iff {entry : String × Json}
    (member : entry ∈ entries) {unit : Node × String} :
    unitOf [] entry.1 entry.2 = .ok unit ↔
      Filable entry ∧
        (Node.ofValue? "" false entry.2).map (fun tree => (tree, "")) =
          some unit := by
  obtain ⟨fields, isObject, isUnit⟩ := sources.roots entry member
  obtain ⟨tree, built⟩ := sources.exists_tree member
  have isTree : tree ∈ treesIn entries :=
    List.mem_filterMap.2 ⟨entry, member, built⟩
  have integer : ∀ node ∈ tree.preorder, ∃ id, node.id = .int id := by
    intro node below
    apply sources.separate.integer node
    rw [Node.preorderOfAll_eq_flatMap]
    exact List.mem_flatMap.2 ⟨tree, isTree, below⟩
  have filed : (∀ node ∈ tree.preorder, ∃ key, node.nodeType.key? = some key) ↔
      ∀ object ∈ entry.2.nodeObjects,
        ∃ key, ((object.lookup "nodeType").getD (.str "")).key? = some key := by
    have sameObjects := attributes_of_built built
    constructor
    · intro nodeTypes object isObject
      obtain ⟨node, below, rfl⟩ :=
        List.mem_map.1 (sameObjects.mem_iff.2 isObject)
      exact nodeTypes node below
    · intro nodeTypes node below
      exact nodeTypes _ (sameObjects.mem_iff.1 (List.mem_map_of_mem below))
  rw [built, Option.map_some, isObject]
  rw [isObject] at built
  rw [Reading.unitOf_eq_ok_iff isUnit built integer, filed]
  constructor
  · rintro ⟨rfl, nodeTypes, path⟩
    refine ⟨⟨nodeTypes, ?_⟩, rfl⟩
    intro others same
    rw [isObject] at same
    cases same
    exact path
  · rintro ⟨filable, same⟩
    exact ⟨(Option.some.inj same).symm, filable.nodeTypes,
      filable.path fields isObject⟩

/-- The units of source entries are their trees, without content. -/
theorem Sources.unitsOf_eq_ok_iff {units : List (Node × String)} :
    unitsOf [] entries = .ok units ↔
      (∀ entry ∈ entries, Filable entry) ∧
        units = (treesIn entries).map fun tree => (tree, "") := by
  have eachUnit : unitsOf [] entries = .ok units ↔
      List.Forall₂
        (fun entry unit => Filable entry ∧
          (Node.ofValue? "" false entry.2).map (fun tree => (tree, "")) =
            some unit)
        entries units := by
    rw [Reading.unitsOf_eq_ok_iff]
    constructor
    · intro made
      exact forall₂_imp_of_mem made fun entry member unit =>
        (sources.unitOf_eq_ok_iff member).1
    · intro made
      exact forall₂_imp_of_mem made fun entry member unit =>
        (sources.unitOf_eq_ok_iff member).2
  have sameUnits :
      entries.map (fun entry =>
          (Node.ofValue? "" false entry.2).map fun tree => (tree, "")) =
        ((treesIn entries).map fun tree => (tree, "")).map some := by
    have built := congrArg
      (List.map (Option.map fun tree => (tree, ""))) sources.map_some_treesIn
    rw [List.map_map, List.map_map] at built
    rw [List.map_map]
    exact built.symm
  rw [eachUnit, List.forall₂_and_left, forall₂_eq_iff, sameUnits,
    List.map_inj_right fun _ _ => Option.some.inj]
  exact and_congr_right fun _ => eq_comm

end

end Reading

end ContractAtlas
