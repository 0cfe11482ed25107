/-
Documents that hold the same trees.

Compiler output names its trees in one of several shapes, and in some order.
Neither plays a part in what is read: each document leads to the same trees,
and each node refers to the same declaration and the same base contracts,
whichever order the trees were numbered in.
-/

import ContractAtlas.Proofs.Source.Readable

namespace ContractAtlas

/-! ### Documents -/

namespace Reading

/-- Where a document keeps its source entries. -/
inductive Frame where
  | buildInformation
  | compilerOutput
  | bareMapping

def Frame.around (sources : List (String × Json)) : Frame → Json
  | buildInformation => .obj [("output", .obj [("sources", .obj sources)])]
  | compilerOutput => .obj [("sources", .obj sources)]
  | bareMapping => .obj sources

/-- Where a source entry keeps its tree. -/
inductive Holder where
  | ast
  | legacyAst
  | itself

def Holder.around (tree : Json) : Holder → Json
  | ast => .obj [("ast", tree)]
  | legacyAst => .obj [("AST", tree)]
  | itself => tree

/-- The document with these trees. -/
def document (frame : Frame) (holder : Holder) (entries : List (String × Json)) :
    Json :=
  frame.around (entries.map fun entry => (entry.1, holder.around entry.2))

private theorem entryOrNull_eq_null {sources : List (String × Json)}
    {key : String}
    (absent : ∀ entry ∈ sources, entry.1 ≠ key) :
    entryOrNull sources key = .null := by
  have missing : sources.lookup key = none := by
    rw [List.lookup_eq_none_iff]
    intro entry member
    exact bne_iff_ne.2 (absent entry member).symm
  rw [entryOrNull, missing]
  rfl

theorem contentsOf_eq_nil {sources : List (String × Json)}
    (absent : ∀ entry ∈ sources, entry.1 ≠ "input") :
    contentsOf sources = .ok [] := by
  rw [contentsOf, entryOrNull_eq_null absent]
  rfl

private theorem read?_around (frame : Frame) {sources : List (String × Json)}
    (unreserved : ∀ entry ∈ sources,
      entry.1 ∉ ["input", "output", "sources"]) :
    read? (frame.around sources) = compile [] sources := by
  have absent : ∀ key ∈ ["input", "output", "sources"],
      ∀ entry ∈ sources, entry.1 ≠ key := by
    rintro key reserved entry member rfl
    exact unreserved entry member reserved
  cases frame with
  | buildInformation =>
      have noContents : contentsOf [("output", .obj [("sources", .obj sources)])]
          = .ok [] := rfl
      have found : sourcesOf [("output", .obj [("sources", .obj sources)])] =
          .ok sources := by
        cases sources with
        | nil => rfl
        | cons entry rest => rfl
      rw [Frame.around, read?, noContents, found]
  | compilerOutput =>
      have noContents : contentsOf [("sources", .obj sources)] = .ok [] := rfl
      have found : sourcesOf [("sources", .obj sources)] = .ok sources := rfl
      rw [Frame.around, read?, noContents, found]
  | bareMapping =>
      have found : sourcesOf sources = .ok sources := by
        rw [sourcesOf, entryOrNull_eq_null (absent "output" (by decide)),
          entryOrNull_eq_null (absent "sources" (by decide))]
      rw [Frame.around, read?, contentsOf_eq_nil (absent "input" (by decide)),
        found]

private theorem offerOf_around (holder : Holder) {fields : List (String × Json)}
    (isUnit : fields.lookup "nodeType" = some (.str "SourceUnit")) :
    offerOf (holder.around (.obj fields)) = .tree (.obj fields) := by
  have given : (Json.obj fields).isGiven = true := by
    cases fields with
    | nil => cases isUnit
    | cons field rest => rfl
  cases holder with
  | ast =>
      have held : (entryOrNull [("ast", .obj fields)] "ast").givenOr
          (entryOrNull [("ast", .obj fields)] "AST") = .obj fields :=
        if_pos given
      have untyped : ([("ast", .obj fields)] : List (String × Json)).lookup
          "nodeType" = none := rfl
      rw [Holder.around, offerOf, untyped, held]
      rfl
  | legacyAst =>
      have held : (entryOrNull [("AST", .obj fields)] "ast").givenOr
          (entryOrNull [("AST", .obj fields)] "AST") = .obj fields := rfl
      have untyped : ([("AST", .obj fields)] : List (String × Json)).lookup
          "nodeType" = none := rfl
      rw [Holder.around, offerOf, untyped, held]
      rfl
  | itself =>
      rw [Holder.around, offerOf, isUnit]
      rfl

private theorem treesOf_around (holder : Holder)
    {entries : List (String × Json)}
    (sources : Sources entries) :
    treesOf (entries.map fun entry => (entry.1, holder.around entry.2)) =
      entries := by
  rw [treesOf, List.filterMap_map]
  calc entries.filterMap _ = entries.filterMap some := by
        apply List.filterMap_congr
        intro entry member
        obtain ⟨fields, isObject, isUnit⟩ := sources.roots entry member
        simp only [Function.comp_apply, isObject, offerOf_around holder isUnit]
        rw [← isObject]
    _ = entries := List.filterMap_some

/-- Every document with these trees is read as their units. -/
theorem outcome_read_document (frame : Frame) (holder : Holder)
    {entries : List (String × Json)} (sources : Sources entries) :
    (read (document frame holder entries)).outcome =
      (unitsOf [] entries).bind Compilation.ofUnits := by
  have unreserved : ∀ entry ∈ entries.map fun entry =>
      (entry.1, holder.around entry.2),
      entry.1 ∉ ["input", "output", "sources"] := by
    intro entry member
    obtain ⟨original, isOriginal, rfl⟩ := List.mem_map.1 member
    exact sources.unreserved original isOriginal
  have noneLost : (entries.isEmpty && !entries.isEmpty) = false := by
    cases entries.isEmpty with
    | false => rfl
    | true => rfl
  rw [outcome_read, document, read?_around frame unreserved, compile,
    treesOf_around holder sources]
  simp only [List.isEmpty_map, noneLost, Bool.false_eq_true, if_false]
  cases unitsOf [] entries with
  | error fault => rfl
  | ok units => rfl

end Reading

/-! ### What is read -/

mutual

/-- The objects of the nodes of a view. -/
def NodeView.objects : NodeView → List (List (String × Json))
  | .mk _ _ _ attributes _ _ children =>
      attributes :: NodeView.objectsOfAll children

def NodeView.objectsOfAll : List NodeView → List (List (String × Json))
  | [] => []
  | view :: rest => view.objects ++ NodeView.objectsOfAll rest

end

namespace Compilation

mutual

private theorem objects_view (compilation : Compilation) : (node : Node) →
    (compilation.view node).objects =
      node.preorder.map fun node => node.info.attributes
  | .mk info children => by
      rw [view, NodeView.objects, compilation.objectsOfAll_viewAll children,
        Node.preorder, List.map_cons]
      rfl

private theorem objectsOfAll_viewAll (compilation : Compilation) :
    (nodes : List Node) →
      NodeView.objectsOfAll (compilation.viewAll nodes) =
        (Node.preorderOfAll nodes).map fun node => node.info.attributes
  | [] => by
      rw [viewAll, NodeView.objectsOfAll, Node.preorderOfAll, List.map_nil]
  | node :: rest => by
      rw [viewAll, NodeView.objectsOfAll, compilation.objects_view node,
        compilation.objectsOfAll_viewAll rest, Node.preorderOfAll,
        List.map_append]

end

theorem Becomes.attributes {trees : List Node} {tree linked : Node}
    (becomes : Becomes trees tree linked) :
    (linked.preorder.map fun node => node.info.attributes) =
      tree.preorder.map fun node => node.info.attributes := by
  obtain ⟨start, -, succeeds⟩ := becomes
  have paired := Node.forall₂_preorder_of_mapInfo _ _ succeeds
  have kept : List.Forall₂
      (fun before after => before.info.attributes = after.info.attributes)
      (Node.number none start tree).preorder linked.preorder :=
    paired.imp fun before after changed => (link_eq_ok changed).2.2.1.symm
  rw [← forall₂_eq_iff.1 kept]
  exact Node.map_preorder_number NodeInfo.attributes (fun _ _ _ => rfl) none
    start tree

theorem map_content_of_ofUnits {units : List (Node × String)}
    {compilation : Compilation} (succeeds : ofUnits units = .ok compilation) :
    (compilation.units.map fun unit => unit.content) =
      units.map fun unit => unit.2 := by
  obtain ⟨linked, found, listed⟩ := exists_linked_of_ofUnits succeeds
  have sameLength := Node.length_of_mapInfoAll found
  rw [Node.length_numberAll, List.length_map] at sameLength
  rw [listed, List.map_zipWith]
  apply List.ext_getElem
  · simp [sameLength]
  · simp

end Compilation

namespace Reading

open Compilation (Becomes)

section

variable {entries : List (String × Json)} (sources : Sources entries)
include sources

private theorem Sources.outcome_read_eq_ok_iff (frame : Frame) (holder : Holder)
    {compilation : Compilation} :
    (read (document frame holder entries)).outcome = .ok compilation ↔
      (∀ entry ∈ entries, Filable entry) ∧
        Compilation.ofUnits ((treesIn entries).map fun tree => (tree, "")) =
          .ok compilation := by
  rw [outcome_read_document frame holder sources]
  constructor
  · intro accepted
    cases made : unitsOf [] entries with
    | error fault =>
        rw [made] at accepted
        cases accepted
    | ok units =>
        obtain ⟨filable, rfl⟩ := sources.unitsOf_eq_ok_iff.1 made
        rw [made] at accepted
        exact ⟨filable, accepted⟩
  · rintro ⟨filable, succeeds⟩
    rw [sources.unitsOf_eq_ok_iff.2 ⟨filable, rfl⟩]
    exact succeeds

private theorem Sources.hasBases_iff :
    (∀ node ∈ Node.preorderOfAll (treesIn entries),
        node.kind = .contractDefinition → HasBases node.info.attributes) ↔
      ∀ object ∈ entries.flatMap fun entry => entry.2.nodeObjects,
        Kind.ofNodeType ((object.lookup "nodeType").getD (.str "")) =
            .contractDefinition →
          HasBases object := by
  have sameObjects := attributes_treesIn entries
  have sameKind : ∀ node ∈ Node.preorderOfAll (treesIn entries),
      node.kind =
        Kind.ofNodeType
          ((node.info.attributes.lookup "nodeType").getD (.str "")) :=
    fun node member => (sources.separate.unlinked node member).kind
  constructor
  · intro hasBases object member isContract
    obtain ⟨node, isNode, rfl⟩ := List.mem_map.1 (sameObjects.mem_iff.2 member)
    apply hasBases node isNode
    rw [sameKind node isNode]
    exact isContract
  · intro hasBases node member isContract
    rw [sameKind node member] at isContract
    exact hasBases _ (sameObjects.mem_iff.1 (List.mem_map_of_mem member))
      isContract

/-- A document can be read exactly when its trees can. -/
theorem Sources.exists_read_iff (frame : Frame) (holder : Holder) :
    (∃ compilation,
        (read (document frame holder entries)).outcome = .ok compilation) ↔
      Readable entries := by
  have sameTrees :
      ((treesIn entries).map fun tree => (tree, "")).map (fun unit => unit.1) =
        treesIn entries := by
    rw [List.map_map]
    exact List.map_id _
  have separate := sources.separate
  rw [← sameTrees] at separate
  have linkable := Compilation.exists_ofUnits_iff separate
  rw [sameTrees, sources.hasBases_iff] at linkable
  simp only [sources.outcome_read_eq_ok_iff, exists_and_left]
  rw [linkable]
  constructor
  · rintro ⟨filable, bases⟩
    exact ⟨filable, bases⟩
  · intro readable
    exact ⟨readable.filable, readable.bases⟩

private theorem Sources.ofTrees_of_read {frame : Frame} {holder : Holder}
    {compilation : Compilation}
    (accepted :
      (read (document frame holder entries)).outcome = .ok compilation) :
    compilation.OfTrees (treesIn entries) ∧
      ∀ unit ∈ compilation.units, unit.content = "" := by
  obtain ⟨-, succeeds⟩ :=
    (sources.outcome_read_eq_ok_iff frame holder).1 accepted
  constructor
  · refine ⟨_, ?_, succeeds⟩
    rw [List.map_map]
    exact List.map_id _
  · have contents := Compilation.map_content_of_ofUnits succeeds
    intro unit member
    have listed : unit.content ∈ compilation.units.map fun unit => unit.content :=
      List.mem_map_of_mem member
    rw [contents, List.map_map] at listed
    obtain ⟨tree, -, same⟩ := List.mem_map.1 listed
    exact same.symm

/-- The roots of a compilation of source entries, each with its entry. -/
theorem Sources.becomes_roots {compilation : Compilation}
    (made : compilation.OfTrees (treesIn entries)) :
    List.Forall₂
      (fun entry root => ∃ tree, Node.ofValue? "" false entry.2 = some tree ∧
        Becomes (treesIn entries) tree root)
      entries (compilation.units.map fun unit => unit.root) := by
  have becomes : List.Forall₂
      (fun built root => ∃ tree, built = some tree ∧
        Becomes (treesIn entries) tree root)
      ((treesIn entries).map some)
      (compilation.units.map fun unit => unit.root) := by
    rw [List.forall₂_map_left_iff]
    exact made.becomes.imp fun tree root becomes => ⟨tree, rfl, becomes⟩
  rw [sources.map_some_treesIn, List.forall₂_map_left_iff] at becomes
  exact becomes

private theorem Sources.exists_root {compilation : Compilation}
    (made : compilation.OfTrees (treesIn entries)) {entry : String × Json}
    (member : entry ∈ entries) :
    ∃ tree root, Node.ofValue? "" false entry.2 = some tree ∧
      Becomes (treesIn entries) tree root := by
  obtain ⟨tree, built⟩ := sources.exists_tree member
  obtain ⟨root, -, becomes⟩ :=
    exists_right_of_forall₂ made.becomes
      (List.mem_filterMap.2 ⟨entry, member, built⟩)
  exact ⟨tree, root, built, becomes⟩

end

private theorem treesIn_perm {order entries : List (String × Json)}
    (same : order.Perm entries) : (treesIn order).Perm (treesIn entries) :=
  same.filterMap _

/-- What the roots of a compilation look like, for each source entry. -/
def ShowsEntries (first : Compilation) (entries : List (String × Json))
    (view : String × Json → NodeView) : Prop :=
  ∀ entry ∈ entries, ∀ tree root,
    Node.ofValue? "" false entry.2 = some tree →
      Becomes (treesIn entries) tree root → first.view root = view entry

section

variable {entries : List (String × Json)} (sources : Sources entries)
  {first : Compilation} (made : first.OfTrees (treesIn entries))
include sources made

private theorem Sources.exists_showsEntries :
    ∃ view, ShowsEntries first entries view := by
  have shown : ∀ entry, ∃ view, entry ∈ entries → ∀ tree root,
      Node.ofValue? "" false entry.2 = some tree →
        Becomes (treesIn entries) tree root → first.view root = view := by
    intro entry
    by_cases member : entry ∈ entries
    · obtain ⟨tree, root, built, becomes⟩ := sources.exists_root made member
      refine ⟨first.view root, fun _ other otherRoot sameTree otherBecomes => ?_⟩
      rw [built] at sameTree
      cases sameTree
      exact Compilation.view_eq_of_perm sources.separate (.refl _) made made
        becomes otherBecomes
    · exact ⟨.mk "" false .sourceUnit [] none [] [],
        fun isMember => absurd isMember member⟩
  choose view same using shown
  exact ⟨view, same⟩

theorem ShowsEntries.objects {view : String × Json → NodeView}
    (shows : ShowsEntries first entries view) {entry : String × Json}
    (member : entry ∈ entries) :
    (view entry).objects.Perm entry.2.nodeObjects := by
  obtain ⟨tree, root, built, becomes⟩ := sources.exists_root made member
  rw [← shows entry member tree root built becomes, Compilation.objects_view,
    becomes.attributes]
  exact attributes_of_built built

/-- The units of the entries in another order look the same. -/
theorem ShowsEntries.units_of_perm {view : String × Json → NodeView}
    (shows : ShowsEntries first entries view) {order : List (String × Json)}
    (same : order.Perm entries) {second : Compilation}
    (otherMade : second.OfTrees (treesIn order)) :
    (second.units.map fun unit => second.view unit.root) = order.map view := by
  have shown : List.Forall₂ (fun entry root => view entry = second.view root)
      order (second.units.map fun unit => unit.root) := by
    apply forall₂_imp_of_mem ((sources.of_perm same).becomes_roots otherMade)
    rintro entry member root ⟨tree, built, becomes⟩
    have isEntry := same.mem_iff.1 member
    obtain ⟨other, original, otherBuilt, originalBecomes⟩ :=
      sources.exists_root made isEntry
    rw [built] at otherBuilt
    cases otherBuilt
    rw [← shows entry isEntry tree original built originalBecomes]
    exact (Compilation.view_eq_of_perm sources.separate
      (treesIn_perm same).symm made otherMade originalBecomes becomes).symm
  have sameViews := forall₂_eq_iff.1 shown
  rw [List.map_map] at sameViews
  exact sameViews.symm

end

/-- Reading depends neither on the shape of a document nor on the order of its
sources.  Either every document with these trees is read, and then each unit
shows the same objects, declarations and base contracts, or none is. -/
theorem read_ignores_shape_and_order {entries : List (String × Json)}
    (sources : Sources entries) :
    (Readable entries →
      ∃ view : String × Json → NodeView,
        (∀ entry ∈ entries, (view entry).objects.Perm entry.2.nodeObjects) ∧
        ∀ frame holder order, order.Perm entries →
          ∃ compilation,
            (read (document frame holder order)).outcome = .ok compilation ∧
            (compilation.units.map fun unit => compilation.view unit.root) =
              order.map view ∧
            ∀ unit ∈ compilation.units, unit.content = "") ∧
    (¬ Readable entries →
      ∀ frame holder order, order.Perm entries →
        ∃ fault, (read (document frame holder order)).outcome = .error fault) := by
  constructor
  · intro readable
    obtain ⟨first, accepted⟩ :=
      (sources.exists_read_iff .bareMapping .itself).2 readable
    obtain ⟨made, -⟩ := sources.ofTrees_of_read accepted
    obtain ⟨view, shows⟩ := sources.exists_showsEntries made
    refine ⟨view, fun entry member => shows.objects sources made member, ?_⟩
    intro frame holder order same
    have sourcesInOrder := sources.of_perm same
    obtain ⟨second, acceptedInOrder⟩ :=
      (sourcesInOrder.exists_read_iff frame holder).2 (readable.of_perm same)
    obtain ⟨madeInOrder, noContent⟩ :=
      sourcesInOrder.ofTrees_of_read acceptedInOrder
    exact ⟨second, acceptedInOrder,
      shows.units_of_perm sources made same madeInOrder, noContent⟩
  · intro unreadable frame holder order same
    cases outcome : (read (document frame holder order)).outcome with
    | error fault => exact ⟨fault, rfl⟩
    | ok compilation =>
        have readable := ((sources.of_perm same).exists_read_iff frame holder).1
          ⟨compilation, outcome⟩
        exact absurd (readable.of_perm same.symm) unreadable

/-! ### Two files in both orders -/

/-- The contract of the first file derives from that of the second, and each
file refers to the contract of the other. -/
def derivedAndBase : List (String × Json) :=
  [("derived.sol",
      unitObject 1 [contractObject 2 [2, 5] [], identifierObject (.int 3) 5]),
    ("base.sol",
      unitObject 4 [contractObject 5 [5] [], identifierObject (.int 6) 2])]

private theorem ids_derivedAndBase :
    ((derivedAndBase.flatMap fun entry => entry.2.nodeObjects).map
        fun object => object.lookup "id") =
      [1, 2, 3, 4, 5, 6].map fun id => some (.int id) :=
  rfl

private theorem sources_derivedAndBase : Sources derivedAndBase where
  unreserved := by
    intro entry member
    rcases List.mem_pair.1 member with rfl | rfl
    · decide
    · decide
  roots := by
    intro entry member
    rcases List.mem_pair.1 member with rfl | rfl
    · exact ⟨_, rfl, rfl⟩
    · exact ⟨_, rfl, rfl⟩
  integer := by
    intro object member
    have listed : object.lookup "id" ∈
        [1, 2, 3, 4, 5, 6].map fun id => some (.int id) := by
      rw [← ids_derivedAndBase]
      exact List.mem_map_of_mem member
    obtain ⟨id, -, isInteger⟩ := List.mem_map.1 listed
    exact ⟨id, isInteger.symm⟩
  distinct := by
    have sameIds := congrArg (List.map fun id => id.getD .null)
      ids_derivedAndBase
    rw [List.map_map, List.map_map] at sameIds
    have distinct : ([1, 2, 3, 4, 5, 6].map Json.int).Nodup :=
      List.Nodup.map (fun _ _ => Json.int.inj) (by decide)
    rw [Function.comp_def] at sameIds
    rw [sameIds]
    exact distinct

private theorem bases_derivedAndBase :
    ((read (document .bareMapping .itself derivedAndBase)).outcome.toOption.map
        fun compilation =>
          compilation.nodes.toList.map fun node => node.info.bases) =
      some [[], [1, 4], [], [], [4], []] := by
  decide +kernel

private theorem bases_baseAndDerived :
    ((read (document .buildInformation .legacyAst
        derivedAndBase.reverse)).outcome.toOption.map
        fun compilation =>
          compilation.nodes.toList.map fun node => node.info.bases) =
      some [[], [1], [], [], [4, 1], []] := by
  decide +kernel

private theorem readable_derivedAndBase : Readable derivedAndBase := by
  have evaluated := bases_derivedAndBase
  apply (sources_derivedAndBase.exists_read_iff .bareMapping .itself).1
  cases accepted :
      (read (document .bareMapping .itself derivedAndBase)).outcome with
  | error fault =>
      rw [accepted] at evaluated
      cases evaluated
  | ok compilation => exact ⟨compilation, rfl⟩

/-- The bases have other numbers when the files are read in the other order,
and the units look the same. -/
theorem read_derivedAndBase_ignores_order :
    Sources derivedAndBase ∧ Readable derivedAndBase ∧
      ∃ view first second,
        (read (document .bareMapping .itself derivedAndBase)).outcome =
          .ok first ∧
        (read (document .buildInformation .legacyAst
          derivedAndBase.reverse)).outcome = .ok second ∧
        (first.nodes.toList.map fun node => node.info.bases) =
          [[], [1, 4], [], [], [4], []] ∧
        (second.nodes.toList.map fun node => node.info.bases) =
          [[], [1], [], [], [4, 1], []] ∧
        (first.units.map fun unit => first.view unit.root) =
          derivedAndBase.map view ∧
        (second.units.map fun unit => second.view unit.root) =
          derivedAndBase.reverse.map view := by
  obtain ⟨view, -, shows⟩ :=
    (read_ignores_shape_and_order sources_derivedAndBase).1
      readable_derivedAndBase
  obtain ⟨first, accepted, firstShows, -⟩ :=
    shows .bareMapping .itself derivedAndBase (.refl _)
  obtain ⟨second, otherAccepted, secondShows, -⟩ :=
    shows .buildInformation .legacyAst derivedAndBase.reverse
      derivedAndBase.reverse_perm
  have firstBases := bases_derivedAndBase
  have secondBases := bases_baseAndDerived
  rw [accepted] at firstBases
  rw [otherAccepted] at secondBases
  exact ⟨sources_derivedAndBase, readable_derivedAndBase, view, first, second,
    accepted, otherAccepted, Option.some.inj firstBases,
    Option.some.inj secondBases, firstShows, secondShows⟩

end Reading

end ContractAtlas
