/-
Resolved references.

Reading compiler output makes one node for each object with a node type and
numbers the nodes of all units in one pre-order.  Of several nodes with one id
the last one is filed, and only filed nodes have a reference: the node that is
filed under the integer they refer to, wherever it stands.
-/

import Mathlib.Data.List.Induction
import ContractAtlas.Proofs.Paired
import ContractAtlas.Proofs.Source.Objects
import ContractAtlas.Proofs.Source.Samples

namespace ContractAtlas

/-! ### The index -/

namespace Json

private theorem Key.eq_of_order_eq {first second : Key}
    (same : Key.order first second = .eq) : first = second := by
  simp only [Key.order, compareLex_eq_eq, compareOn, Std.compare_eq_iff_eq] at same
  obtain ⟨sameRank, sameInteger, sameBits, sameLetters⟩ := same
  cases first <;> cases second <;> simp only [Key.rank] at sameRank <;>
    try contradiction
  · rfl
  · exact congrArg Key.number sameInteger
  · exact congrArg Key.real
      (congrArg Binary64.mk (UInt64.toNat_inj.1 sameBits))
  · exact congrArg Key.text sameLetters

theorem Key.order_eq_iff {first second : Key} :
    Key.order first second = .eq ↔ first = second := by
  constructor
  · exact Key.eq_of_order_eq
  · rintro rfl
    exact Std.ReflCmp.compare_self

end Json

namespace Index

private theorem position?_add (index : Index) (node : Node) {key : Json.Key}
    (proper : key ≠ .null) :
    (index.add node).position? key =
      if node.id.key? = some key then some node.info.position
      else index.position? key := by
  by_cases filed : node.id = .null
  · have other : node.id.key? ≠ some key := by
      rw [filed]
      intro same
      exact proper (Option.some.inj same).symm
    rw [if_neg other, add, filed]
  · cases found : node.id.key? with
    | none =>
        have unchanged : index.add node = index := by
          rw [add]
          split
          · contradiction
          · simp only [found]
        rw [unchanged, if_neg (by simp)]
    | some other =>
        have added : index.add node =
            index.insert other node.info.position := by
          rw [add]
          split
          · contradiction
          · simp only [found]
        simp only [added, position?, Std.TreeMap.getElem?_insert,
          Json.Key.order_eq_iff, Option.some.injEq]

/-- Of several nodes with one id the last one is filed. -/
theorem position?_ofNodes (nodes : List Node) {key : Json.Key}
    (proper : key ≠ .null) :
    (ofNodes nodes).position? key =
      (nodes.reverse.find? fun node => node.id.key? = some key).map
        fun node => node.info.position := by
  induction nodes using List.reverseRecOn with
  | nil => simp [ofNodes, empty, position?]
  | append_singleton nodes node inductionHypothesis =>
      have folded : ofNodes (nodes ++ [node]) = (ofNodes nodes).add node := by
        rw [ofNodes, List.foldl_append, List.foldl_cons, List.foldl_nil, ofNodes]
      rw [folded, position?_add _ _ proper, List.reverse_append,
        List.reverse_singleton, List.singleton_append, List.find?_cons]
      by_cases carries : node.id.key? = some key
      · simp [carries]
      · simp [carries, inductionHypothesis]

end Index

namespace Compilation

/-! ### Links -/

theorem isIndexed_iff {index : Index} {node : Node} :
    isIndexed index node.info = true ↔
      ∃ key, key ≠ .null ∧ node.id.key? = some key ∧
        index.position? key = some node.info.position := by
  have idOf : (node.info.attributes.lookup "id").getD .null = node.id := rfl
  rw [isIndexed, idOf]
  cases node.id with
  | null => simp [Json.key?]
  | arr | obj => simp [Json.key?]
  | bool | int | str => simp [Json.key?]
  | real number =>
      cases whole : number.toInt? with
      | none => simp [Json.key?, whole]
      | some value => simp [Json.key?, whole]

theorem link_eq_ok {index : Index} {nodes : Array Node} {info changed : NodeInfo}
    (linked : link index nodes info = .ok changed) :
    changed.position = info.position ∧ changed.parent = info.parent ∧
      changed.attributes = info.attributes ∧
      changed.target =
        if isIndexed index info then targetOf index info else info.target := by
  by_cases indexed : isIndexed index info = true
  · rw [link, if_pos indexed] at linked
    rw [if_pos indexed]
    by_cases isContract : info.kind = .contractDefinition
    · rw [if_pos isContract] at linked
      split at linked
      · cases linked
      · cases linked
        exact ⟨rfl, rfl, rfl, rfl⟩
    · rw [if_neg isContract] at linked
      cases linked
      exact ⟨rfl, rfl, rfl, rfl⟩
  · rw [link, if_neg indexed] at linked
    rw [if_neg indexed]
    cases linked
    exact ⟨rfl, rfl, rfl, rfl⟩

private theorem ofUnits_eq_ok {units : List (Node × String)}
    {compilation : Compilation}
    (succeeds : ofUnits units = .ok compilation) :
    ∃ roots linked nodes,
      roots = Node.numberAll none 0 (units.map fun unit => unit.1) ∧
      Node.mapInfoAll (link compilation.index nodes) roots = .ok linked ∧
      compilation.index = Index.ofNodes (Node.preorderOfAll roots) ∧
      compilation.nodes = (Node.preorderOfAll linked).toArray ∧
      compilation.units.map (fun unit => unit.root) = linked := by
  rw [ofUnits] at succeeds
  split at succeeds
  · cases succeeds
  · rename_i linked found
    rw [linkAll] at found
    split at found
    · cases found
    · cases succeeds
      refine ⟨_, linked, _, rfl, found, rfl, rfl, ?_⟩
      have sameLength : linked.length = units.length := by
        rw [Node.length_of_mapInfoAll found, Node.length_numberAll,
          List.length_map]
      rw [List.map_zipWith]
      apply List.ext_getElem
      · simp [sameLength]
      · simp

/-! ### Reading -/

/-- The nodes of all units, in the order of a walk over one unit after the
other. -/
def visited (compilation : Compilation) : List Node :=
  compilation.units.flatMap fun unit => unit.root.walk

/-- The node that is filed under a key. -/
def indexed? (compilation : Compilation) (key : Json.Key) : Option Node :=
  (compilation.index.position? key).bind compilation.nodeAt?

/-- The nodes of a compilation are numbered nodes, linked with each other. -/
structure LinkedFrom (compilation : Compilation) (before : List Node) : Prop where
  numbered :
    Node.NumberedAll none 0 (compilation.units.map fun unit => unit.root)
  paired : ∃ nodes, List.Forall₂
    (fun node changed =>
      link compilation.index nodes node.info = .ok changed.info)
    before compilation.visited
  filed : compilation.index = Index.ofNodes before
  listed : compilation.nodes.toList = compilation.visited

theorem visited_eq_preorderOfAll (compilation : Compilation) :
    compilation.visited =
      Node.preorderOfAll (compilation.units.map fun unit => unit.root) := by
  rw [visited, Node.preorderOfAll_eq_flatMap, List.flatMap_map]
  simp only [Node.walk_eq_preorder]

theorem mem_visited_child {compilation : Compilation} {node child : Node}
    (visited : node ∈ compilation.visited)
    (isChild : child ∈ node.children) : child ∈ compilation.visited := by
  rw [visited_eq_preorderOfAll, ← Node.visit_eq_preorderOfAll,
    Node.mem_visit_iff] at visited ⊢
  obtain ⟨root, isRoot, below⟩ := visited
  exact ⟨root, isRoot, below.tail isChild⟩

theorem linkedFrom_of_ofUnits {units : List (Node × String)}
    {compilation : Compilation} (succeeds : ofUnits units = .ok compilation) :
    compilation.LinkedFrom
      (Node.preorderOfAll
        (Node.numberAll none 0 (units.map fun unit => unit.1))) := by
  obtain ⟨roots, linked, nodes, rfl, changed, filed, listed, sameRoots⟩ :=
    ofUnits_eq_ok succeeds
  have keeps : ∀ info other, link compilation.index nodes info = .ok other →
      other.position = info.position ∧ other.parent = info.parent := by
    intro info other linkedInfo
    obtain ⟨samePosition, sameParent, -, -⟩ := link_eq_ok linkedInfo
    exact ⟨samePosition, sameParent⟩
  constructor
  case numbered =>
    rw [sameRoots]
    exact Node.numberedAll_of_mapInfoAll keeps _ _ changed
      (Node.numberedAll_numberAll none 0 _)
  case paired =>
    rw [visited_eq_preorderOfAll, sameRoots]
    exact ⟨nodes, Node.forall₂_preorder_of_mapInfoAll _ _ changed⟩
  case filed => exact filed
  case listed => rw [listed, visited_eq_preorderOfAll, sameRoots]

namespace LinkedFrom

variable {compilation : Compilation} {before : List Node}

theorem positions (linked : compilation.LinkedFrom before) :
    compilation.visited.map (fun node => node.info.position) =
      List.range compilation.visited.length := by
  have counted :=
    Node.positions_preorderOfAll_of_numbered _ linked.numbered
  rw [visited_eq_preorderOfAll, counted,
    ← Node.sizeOfAll_eq_length_preorderOfAll, List.range_eq_range']

/-- The node at the position of a visited node is that node. -/
theorem nodeAt?_of_mem (linked : compilation.LinkedFrom before) {node : Node}
    (member : node ∈ compilation.visited) :
    compilation.nodeAt? node.info.position = some node := by
  obtain ⟨index, inside, rfl⟩ := List.mem_iff_getElem.1 member
  have samePosition : compilation.visited[index].info.position = index := by
    have counted := congrArg (fun positions => positions[index]?) linked.positions
    simp only [List.getElem?_map, List.getElem?_eq_getElem inside,
      List.getElem?_range inside] at counted
    exact Option.some.inj counted
  rw [samePosition, nodeAt?, ← Array.getElem?_toList, linked.listed,
    List.getElem?_eq_getElem inside]

theorem mem_visited_of_nodeAt? (linked : compilation.LinkedFrom before)
    {position : Nat} {node : Node}
    (found : compilation.nodeAt? position = some node) :
    node ∈ compilation.visited := by
  rw [nodeAt?, ← Array.getElem?_toList, linked.listed] at found
  exact List.mem_of_getElem? found

theorem nodeAt?_child (linked : compilation.LinkedFrom before)
    {position : Nat} {node child : Node}
    (found : compilation.nodeAt? position = some node)
    (isChild : child ∈ node.children) :
    compilation.nodeAt? child.info.position = some child :=
  linked.nodeAt?_of_mem
    (mem_visited_child (linked.mem_visited_of_nodeAt? found) isChild)

/-- Linking changes neither the position nor the attributes of a node. -/
theorem map_eq (linked : compilation.LinkedFrom before) {α : Type}
    (view : Nat → List (String × Json) → α) :
    before.map (fun node => view node.info.position node.info.attributes) =
      compilation.visited.map
        fun node => view node.info.position node.info.attributes := by
  obtain ⟨nodes, paired⟩ := linked.paired
  rw [← List.forall₂_eq_eq_eq, List.forall₂_map_left_iff,
    List.forall₂_map_right_iff]
  apply paired.imp
  intro node changed linkedInfo
  obtain ⟨samePosition, -, sameAttributes, -⟩ := link_eq_ok linkedInfo
  rw [samePosition, sameAttributes]

theorem position?_eq (linked : compilation.LinkedFrom before) {key : Json.Key}
    (proper : key ≠ .null) :
    compilation.index.position? key =
      (compilation.visited.reverse.find? fun node =>
          node.id.key? = some key).map
        fun node => node.info.position := by
  -- The index was made before linking; it reads ids and positions only.
  have found (nodes : List Node) :
      (nodes.reverse.find? fun node => node.id.key? = some key).map
          (fun node => node.info.position) =
        ((nodes.map fun node =>
              (node.info.position,
                ((node.info.attributes.lookup "id").getD .null).key?)).reverse.find?
            fun entry => entry.2 = some key).map
          Prod.fst := by
    rw [← List.map_reverse, List.find?_map, Option.map_map]
    rfl
  rw [linked.filed, Index.position?_ofNodes _ proper, found, found,
    linked.map_eq fun position attributes =>
      (position, ((attributes.lookup "id").getD .null).key?)]

theorem indexed?_eq (linked : compilation.LinkedFrom before) {key : Json.Key}
    (proper : key ≠ .null) :
    compilation.indexed? key =
      compilation.visited.reverse.find? fun node =>
        node.id.key? = some key := by
  rw [indexed?, linked.position?_eq proper]
  cases found : compilation.visited.reverse.find? fun node =>
      node.id.key? = some key with
  | none => rfl
  | some node =>
      have member := List.mem_reverse.1 (List.mem_of_find?_eq_some found)
      exact linked.nodeAt?_of_mem member

private theorem position?_eq_map_indexed?
    (linked : compilation.LinkedFrom before)
    {key : Json.Key} (proper : key ≠ .null) :
    compilation.index.position? key =
      (compilation.indexed? key).map fun node => node.info.position := by
  rw [linked.indexed?_eq proper, linked.position?_eq proper]

theorem isIndexed_iff (linked : compilation.LinkedFrom before) {node : Node}
    (member : node ∈ compilation.visited) :
    isIndexed compilation.index node.info = true ↔
      ∃ key, key ≠ .null ∧ node.id.key? = some key ∧
        compilation.indexed? key = some node := by
  rw [Compilation.isIndexed_iff]
  constructor
  · rintro ⟨key, proper, carries, found⟩
    refine ⟨key, proper, carries, ?_⟩
    rw [indexed?, found]
    exact linked.nodeAt?_of_mem member
  · rintro ⟨key, proper, carries, found⟩
    refine ⟨key, proper, carries, ?_⟩
    rw [linked.position?_eq_map_indexed? proper, found]
    rfl

private theorem targetOf_eq (linked : compilation.LinkedFrom before)
    (node : Node) :
    targetOf compilation.index node.info =
      (((node.attribute? "referencedDeclaration").bind Json.toInt?).bind
          fun id => compilation.indexed? (.number id)).map
        fun declaration => declaration.info.position := by
  rw [targetOf, Node.attribute?]
  cases node.info.attributes.lookup "referencedDeclaration" with
  | none => rfl
  | some reference =>
      cases whole : reference.toInt? with
      | none => simp [whole]
      | some id =>
          have proper : Json.Key.number id ≠ .null := by
            intro same
            cases same
          simp [whole, linked.position?_eq_map_indexed? proper]

/-- The reference of a node, if the nodes had none before linking. -/
theorem target_eq (linked : compilation.LinkedFrom before)
    (blank : ∀ node ∈ before, node.info.target = none) {node : Node}
    (member : node ∈ compilation.visited) :
    node.info.target =
      if isIndexed compilation.index node.info then
        targetOf compilation.index node.info
      else none := by
  obtain ⟨nodes, paired⟩ := linked.paired
  obtain ⟨original, isOriginal, linkedInfo⟩ :=
    exists_left_of_forall₂ paired member
  obtain ⟨samePosition, -, sameAttributes, target⟩ := link_eq_ok linkedInfo
  have sameFiling : isIndexed compilation.index node.info =
      isIndexed compilation.index original.info := by
    rw [isIndexed, isIndexed, samePosition, sameAttributes]
  have sameTarget : targetOf compilation.index node.info =
      targetOf compilation.index original.info := by
    rw [targetOf, targetOf, sameAttributes]
  rw [target, blank original isOriginal, sameFiling, sameTarget]

end LinkedFrom

/-- The compilation holds the nodes of some trees, and its references are
resolved. -/
structure Resolved (compilation : Compilation) (trees : List Json) : Prop where
  /-- There is one node for each object with a node type. -/
  objects :
    (compilation.visited.map fun node => node.info.attributes).Perm
      (trees.flatMap Json.nodeObjects)
  /-- No node is visited twice. -/
  positions :
    compilation.visited.map (fun node => node.info.position) =
      List.range compilation.visited.length
  /-- A node without a parent is the root of a unit. -/
  enclosed : ∀ node ∈ compilation.visited,
    (node.info.parent = none ∧
        node ∈ compilation.units.map fun unit => unit.root) ∨
      ∃ above ∈ compilation.visited,
        node.info.parent = some above.info.position
  /-- A node is a child of its parent and of no other node. -/
  children : ∀ node ∈ compilation.visited, ∀ above ∈ compilation.visited,
    (node ∈ above.children ↔ node.info.parent = some above.info.position)
  /-- The last node with an id is filed under it. -/
  latest : ∀ key, key ≠ .null →
    compilation.indexed? key =
      compilation.visited.reverse.find? fun node => node.id.key? = some key
  /-- A filed node refers to the node that its reference stands for. -/
  linked : ∀ node ∈ compilation.visited, ∀ key, key ≠ .null →
    node.id.key? = some key → compilation.indexed? key = some node →
      node.info.target =
        (((node.attribute? "referencedDeclaration").bind Json.toInt?).bind
            fun id => compilation.indexed? (.number id)).map
          fun declaration => declaration.info.position
  /-- A node that is not filed refers to nothing. -/
  unlinked : ∀ node ∈ compilation.visited,
    (∀ key, key ≠ .null → node.id.key? = some key →
        compilation.indexed? key ≠ some node) →
      node.info.target = none

private theorem resolved_of_ofUnits {units : List (Node × String)}
    {compilation : Compilation} {trees : List Json}
    (origins :
      ((Node.preorderOfAll (units.map fun unit => unit.1)).map
          Node.origin).Perm
        ((trees.flatMap Json.nodeObjects).map fun object => (object, none)))
    (succeeds : ofUnits units = .ok compilation) :
    compilation.Resolved trees := by
  have linked := linkedFrom_of_ofUnits succeeds
  generalize numbering : Node.preorderOfAll
    (Node.numberAll none 0 (units.map fun unit => unit.1)) = before at linked
  have numberedOrigins : (before.map Node.origin).Perm
      ((trees.flatMap Json.nodeObjects).map fun object => (object, none)) := by
    rw [← numbering]
    have same := Node.map_preorderOfAll_numberAll
      (fun info => (info.attributes, info.target)) (fun _ _ _ => rfl) none 0
      (units.map fun unit => unit.1)
    exact (List.Perm.of_eq same).trans origins
  have blank : ∀ node ∈ before, node.info.target = none := by
    intro node member
    have listed := numberedOrigins.subset (List.mem_map_of_mem member)
    obtain ⟨object, -, same⟩ := List.mem_map.1 listed
    exact (congrArg Prod.snd same).symm
  have inUnits : ∀ node, node ∈ compilation.visited ↔
      node ∈ Node.preorderOfAll
        (compilation.units.map fun unit => unit.root) := by
    intro node
    rw [visited_eq_preorderOfAll]
  constructor
  case objects =>
    have attributes := numberedOrigins.map Prod.fst
    rw [List.map_map, List.map_map] at attributes
    have same := linked.map_eq fun _ attributes => attributes
    rw [← same]
    simpa [Function.comp_def, Node.origin] using attributes
  case positions => exact linked.positions
  case enclosed =>
    intro node member
    rcases Node.mem_or_exists_parent ((inUnits node).1 member) with
      isRoot | ⟨above, around, isChild⟩
    · exact Or.inl ⟨Node.parent_of_mem linked.numbered isRoot, isRoot⟩
    · exact Or.inr ⟨above, (inUnits above).2 around,
        Node.parent_of_mem_children linked.numbered around isChild⟩
  case children =>
    intro node member above around
    exact Node.mem_children_iff linked.numbered ((inUnits above).1 around)
      ((inUnits node).1 member)
  case latest =>
    intro key proper
    exact linked.indexed?_eq proper
  case linked =>
    intro node member key proper carries found
    have filed := (linked.isIndexed_iff member).2 ⟨key, proper, carries, found⟩
    rw [linked.target_eq blank member, if_pos filed, linked.targetOf_eq]
  case unlinked =>
    intro node member notFiled
    have unfiled : ¬ isIndexed compilation.index node.info = true := by
      rw [linked.isIndexed_iff member]
      rintro ⟨key, proper, carries, found⟩
      exact notFiled key proper carries found
    rw [linked.target_eq blank member, if_neg unfiled]

end Compilation

namespace Reading

theorem outcome_read (output : Json) : (read output).outcome = read? output := by
  rw [read, Journal.outcome_bind]
  show ((Journal.ofExcept (read? output) >>= _ : Journal Compilation)).outcome = _
  rw [Journal.outcome_bind]
  show (read? output).bind _ = _
  cases read? output with
  | error fault => rfl
  | ok compilation => rfl

theorem unitOf_eq_ok_iff_built {contents : List (String × String)}
    {path : String} {tree : Json} {unit : Node × String} :
    unitOf contents path tree = .ok unit ↔
      Node.ofValue? "" false tree = some unit.1 ∧
        unit.1.kind = .sourceUnit ∧
        (∀ node ∈ unit.1.preorder, nodeFault? node = none) ∧
        contentFor contents path unit.1 = .ok unit.2 := by
  rw [unitOf, ← List.findSome?_eq_none_iff]
  constructor
  · intro made
    split at made
    · cases made
    · rename_i root built
      split at made
      · rename_i isUnit
        split at made
        · cases made
        · rename_i noFault
          split at made
          · cases made
          · rename_i content found
            cases made
            exact ⟨built, isUnit, noFault, found⟩
      · cases made
  · intro parts
    obtain ⟨built, isUnit, noFault, found⟩ := parts
    rw [built]
    dsimp only
    rw [if_pos isUnit, noFault]
    dsimp only
    rw [found]

theorem ofValue?_of_unitOf {contents : List (String × String)} {path : String}
    {tree : Json} {unit : Node × String}
    (built : unitOf contents path tree = .ok unit) :
    Node.ofValue? "" false tree = some unit.1 :=
  (unitOf_eq_ok_iff_built.1 built).1

private theorem origins_of_unitsOf {contents : List (String × String)}
    {trees : List (String × Json)} {units : List (Node × String)}
    (built : unitsOf contents trees = .ok units) :
    ((Node.preorderOfAll (units.map fun unit => unit.1)).map Node.origin).Perm
      (((trees.map fun entry => entry.2).flatMap Json.nodeObjects).map
        fun object => (object, none)) := by
  induction trees generalizing units with
  | nil =>
      rw [unitsOf] at built
      cases built
      exact .nil
  | cons entry rest inductionHypothesis =>
      obtain ⟨path, tree⟩ := entry
      rw [unitsOf] at built
      split at built
      · cases built
      · rename_i unit first
        split at built
        · cases built
        · rename_i others later
          cases built
          have root := Node.origins_ofValue? "" false tree
          rw [ofValue?_of_unitOf first] at root
          have joined := root.append (inductionHypothesis later)
          rw [← List.map_append, ← Node.preorderOfAll_append,
            ← List.map_append] at joined
          exact joined

theorem read_eq_ok_iff {output : Json} {compilation : Compilation} :
    (read output).outcome = .ok compilation ↔
      ∃ entries contents sources units, output = .obj entries ∧
        contentsOf entries = .ok contents ∧ sourcesOf entries = .ok sources ∧
        (treesOf sources = [] → sources = []) ∧
        unitsOf contents (treesOf sources) = .ok units ∧
        Compilation.ofUnits units = .ok compilation := by
  rw [outcome_read]
  constructor
  · intro accepted
    cases output with
    | obj entries =>
        rw [read?] at accepted
        split at accepted
        · cases accepted
        · rename_i contents hasContents
          split at accepted
          · cases accepted
          · rename_i sources hasSources
            rw [compile] at accepted
            split at accepted
            · cases accepted
            · rename_i hasTrees
              split at accepted
              · cases accepted
              · rename_i units made
                refine ⟨entries, contents, sources, units, rfl, hasContents,
                  hasSources, ?_, made, accepted⟩
                intro noTrees
                simpa [noTrees] using hasTrees
    | null | bool | int | real | str | arr => cases accepted
  · rintro ⟨entries, contents, sources, units, rfl, hasContents, hasSources,
      hasTrees, made, linked⟩
    rw [read?, hasContents]
    dsimp only
    rw [hasSources]
    dsimp only
    rw [compile, if_neg, made]
    · exact linked
    · simpa using hasTrees

theorem exists_unitsOf_of_read {output : Json} {compilation : Compilation}
    (accepted : (read output).outcome = .ok compilation) :
    ∃ contents trees units, unitsOf contents trees = .ok units ∧
      Compilation.ofUnits units = .ok compilation := by
  obtain ⟨_, contents, sources, units, -, -, -, -, made, linked⟩ :=
    read_eq_ok_iff.1 accepted
  exact ⟨contents, treesOf sources, units, made, linked⟩

theorem exists_ofUnits_of_read {output : Json} {compilation : Compilation}
    (accepted : (read output).outcome = .ok compilation) :
    ∃ units, Compilation.ofUnits units = .ok compilation := by
  obtain ⟨-, -, units, -, linked⟩ := exists_unitsOf_of_read accepted
  exact ⟨units, linked⟩

/-- The compilation that is read from compiler output has one node for each
object with a node type in its trees, and the references of its nodes are
resolved against the last node with each id. -/
theorem read_resolves_references {output : Json} {compilation : Compilation}
    (accepted : (read output).outcome = .ok compilation) :
    ∃ entries sources, output = .obj entries ∧
      sourcesOf entries = .ok sources ∧
      compilation.Resolved ((treesOf sources).map fun entry => entry.2) := by
  rw [outcome_read] at accepted
  cases output with
  | obj entries =>
      rw [read?] at accepted
      split at accepted
      · cases accepted
      · split at accepted
        · cases accepted
        · rename_i sources found
          rw [compile] at accepted
          split at accepted
          · cases accepted
          · split at accepted
            · cases accepted
            · rename_i units built
              exact ⟨entries, sources, rfl, found,
                Compilation.resolved_of_ofUnits (origins_of_unitsOf built)
                  accepted⟩
  | null | bool | int | real | str | arr => cases accepted

/-! ### Two files that refer to each other -/

/-- The id 2 stands for a node of the second file, and the last node has no
id. -/
def twoFiles : Json :=
  .obj
    [("a.sol",
        unitObject 1
          [identifierObject (.int 2) 5, identifierObject (.int 3) 5]),
      ("b.sol",
        unitObject 4
          [identifierObject (.int 5) 2, identifierObject (.int 2) 7,
            identifierObject .null 5])]

theorem read_twoFiles_resolves :
    ∃ compilation, (read twoFiles).outcome = .ok compilation ∧
      compilation.nodes.toList.map (fun node => node.info.target) =
        [none, none, some 4, none, some 5, none, none] ∧
      ∃ entries sources, twoFiles = .obj entries ∧
        sourcesOf entries = .ok sources ∧
        compilation.Resolved ((treesOf sources).map fun entry => entry.2) := by
  have evaluated : (read twoFiles).outcome.toOption.map (fun compilation =>
      compilation.nodes.toList.map fun node => node.info.target) =
        some [none, none, some 4, none, some 5, none, none] := by
    decide +kernel
  cases accepted : (read twoFiles).outcome with
  | error fault =>
      rw [accepted] at evaluated
      cases evaluated
  | ok compilation =>
      rw [accepted] at evaluated
      exact ⟨compilation, rfl, Option.some.inj evaluated,
        read_resolves_references accepted⟩

end Reading

end ContractAtlas
