/-
Reading compiler output in another key order.

The keys of any objects may stand in another order, if the paths of the sources
keep theirs and the order of children is settled at every node.  The output is
then read all the same, and its nodes correspond one by one.  Two values show
the order of their keys: an object in a name, which labels print, and an object
of base contracts, whose keys are the ids of the bases.
-/

import ContractAtlas.Proofs.Source.Relinking

namespace ContractAtlas

namespace Reading

open Json (EntryReorders)

/-! ### The parts of compiler output -/

private theorem reorders_entryOrNull {entries others : List (String × Json)}
    (reorders : (Json.obj entries).Reorders (.obj others)) (key : String) :
    (entryOrNull entries key).Reorders (entryOrNull others key) :=
  .getD (reorders.lookup key) Json.reorders_null

private theorem entriesFor_of_reorders {operation : String} {value other : Json}
    (reorders : value.Reorders other) {entries : List (String × Json)}
    (found : entriesFor operation value = .ok entries) :
    ∃ others, entriesFor operation other = .ok others ∧
      (Json.obj entries).Reorders (.obj others) := by
  unfold entriesFor at found ⊢
  rw [← reorders.isGiven]
  by_cases given : value.isGiven = true
  · rw [if_pos given] at found ⊢
    cases reorders with
    | scalar filed =>
        cases value with
        | obj _ => cases filed
        | null | bool | int | real | str | arr => cases found
    | arr _ => cases found
    | obj distinct sameKeys each same =>
        cases found
        exact ⟨_, rfl, .obj distinct sameKeys each same⟩
  · rw [if_neg given] at found ⊢
    cases found
    exact ⟨[], rfl, .obj List.nodup_nil rfl .nil .nil⟩

/-- The content of a source, if it is text. -/
def contentOf? (entry : String × Json) : Option (String × String) :=
  match entry.2 with
  | .obj fields =>
      match fields.lookup "content" with
      | some (.str content) => some (entry.1, content)
      | _ => none
  | _ => none

private theorem contentsOf_eq_ok_iff {entries : List (String × Json)}
    {contents : List (String × String)} :
    contentsOf entries = .ok contents ↔
      ∃ input sources,
        entriesFor "get" (entryOrNull entries "input") = .ok input ∧
        entriesFor "items" (entryOrNull input "sources") = .ok sources ∧
        sources.filterMap contentOf? = contents := by
  rw [contentsOf]
  cases entriesFor "get" (entryOrNull entries "input") with
  | error fault =>
      constructor
      · intro failed
        cases failed
      · rintro ⟨input, sources, failed, -⟩
        cases failed
  | ok input =>
      simp only [Except.ok.injEq, exists_and_left, exists_eq_left']
      show (entriesFor "items" (entryOrNull input "sources")).bind _ = _ ↔ _
      cases entriesFor "items" (entryOrNull input "sources") with
      | error fault =>
          constructor
          · intro failed
            cases failed
          · rintro ⟨sources, failed, -⟩
            cases failed
      | ok sources =>
          simp only [Except.ok.injEq, exists_eq_left']
          exact ⟨fun same => Except.ok.inj same, fun same =>
            congrArg Except.ok same⟩

private theorem contentOf?_of_reorders {entry other : String × Json}
    (same : EntryReorders entry other) :
    contentOf? entry = contentOf? other := by
  obtain ⟨path, value⟩ := entry
  obtain ⟨otherPath, otherValue⟩ := other
  obtain ⟨samePath, sameValue⟩ := same
  dsimp only at samePath sameValue
  subst samePath
  cases sameValue with
  | scalar _ => rfl
  | arr _ => rfl
  | @obj fields _ otherFields distinct sameKeys each moves =>
      have found := (Json.Reorders.obj distinct sameKeys each moves).lookup
        "content"
      rw [contentOf?, contentOf?]
      dsimp only
      generalize fields.lookup "content" = content,
        otherFields.lookup "content" = otherContent at found ⊢
      cases found with
      | none => rfl
      | some sameContent =>
          cases sameContent with
          | scalar _ => rfl
          | arr _ => rfl
          | obj _ _ _ _ => rfl

private theorem key_of_contentOf? {entry : String × Json}
    {content : String × String} (found : contentOf? entry = some content) :
    content.1 = entry.1 := by
  rw [contentOf?] at found
  split at found
  · split at found
    · cases found
      rfl
    · cases found
  · cases found

private theorem keys_contents_sublist (sources : List (String × Json)) :
    ((sources.filterMap contentOf?).map Prod.fst).Sublist
      (sources.map Prod.fst) := by
  induction sources with
  | nil => exact .slnil
  | cons entry rest inductionHypothesis =>
      rw [List.filterMap_cons, List.map_cons]
      cases found : contentOf? entry with
      | none => exact inductionHypothesis.cons _
      | some content =>
          rw [List.map_cons, key_of_contentOf? found]
          exact inductionHypothesis.cons_cons _

/-- The same contents are found under each path. -/
theorem contentsOf_of_reorders {entries others : List (String × Json)}
    (reorders : (Json.obj entries).Reorders (.obj others))
    {contents : List (String × String)}
    (found : contentsOf entries = .ok contents) :
    ∃ otherContents, contentsOf others = .ok otherContents ∧
      ∀ path, contents.lookup path = otherContents.lookup path := by
  obtain ⟨input, sources, hasInput, hasSources, rfl⟩ :=
    contentsOf_eq_ok_iff.1 found
  obtain ⟨otherInput, hasOtherInput, sameInput⟩ :=
    entriesFor_of_reorders (reorders_entryOrNull reorders "input") hasInput
  obtain ⟨otherSources, hasOtherSources, sameSources⟩ :=
    entriesFor_of_reorders (reorders_entryOrNull sameInput "sources") hasSources
  refine ⟨_, contentsOf_eq_ok_iff.2
    ⟨otherInput, otherSources, hasOtherInput, hasOtherSources, rfl⟩, ?_⟩
  obtain ⟨moved, _, isOther, distinct, each, same⟩ := sameSources.moved
  cases isOther
  have sameContents : sources.filterMap contentOf? =
      moved.filterMap contentOf? := by
    rw [← List.forall₂_eq_eq_eq]
    refine List.rel_filterMap ?_ each
    intro entry other sameEntry
    rw [contentOf?_of_reorders sameEntry]
    cases contentOf? other with
    | none => exact .none
    | some content => exact .some rfl
  rw [sameContents]
  apply lookup_eq_of_perm (same.filterMap contentOf?)
  rw [← sameContents]
  exact (keys_contents_sublist sources).nodup distinct

/-- The source entries of output that is not wrapped. -/
def plainSources (output : List (String × Json)) : List (String × Json) :=
  match entryOrNull output "sources" with
  | .obj entries => entries
  | _ => output

private theorem sourcesOf_eq_plainSources {output : List (String × Json)}
    (plain : (entryOrNull output "output").isObject = false) :
    sourcesOf output = .ok (plainSources output) := by
  rw [sourcesOf, plainSources]
  cases isOutput : entryOrNull output "output" with
  | obj entries =>
      rw [isOutput] at plain
      cases plain
  | null | bool | int | real | str | arr =>
      cases entryOrNull output "sources" <;> rfl

private theorem reorders_plainSources {entries others : List (String × Json)}
    (reorders : (Json.obj entries).Reorders (.obj others)) :
    (Json.obj (plainSources entries)).Reorders (.obj (plainSources others)) := by
  have sameSources := reorders_entryOrNull reorders "sources"
  rw [plainSources, plainSources]
  generalize entryOrNull entries "sources" = sources,
    entryOrNull others "sources" = otherSources at sameSources ⊢
  cases sameSources with
  | arr _ => exact reorders
  | obj distinct sameKeys each same => exact .obj distinct sameKeys each same
  | scalar filed =>
      cases sources with
      | obj _ => cases filed
      | null | bool | int | real | str | arr => exact reorders

private theorem sourcesOf_of_reorders {entries others : List (String × Json)}
    (reorders : (Json.obj entries).Reorders (.obj others))
    {sources : List (String × Json)}
    (found : sourcesOf entries = .ok sources) :
    ∃ otherSources, sourcesOf others = .ok otherSources ∧
      (Json.obj sources).Reorders (.obj otherSources) := by
  have sameOutput := reorders_entryOrNull reorders "output"
  have sameShape : (entryOrNull entries "output").isObject =
      (entryOrNull others "output").isObject :=
    sameOutput.congr Json.isObject (fun _ _ _ => rfl) fun _ _ _ => rfl
  cases wrapped : (entryOrNull entries "output").isObject with
  | false =>
      rw [sourcesOf_eq_plainSources wrapped] at found
      cases found
      exact ⟨_, sourcesOf_eq_plainSources (sameShape.symm.trans wrapped),
        reorders_plainSources reorders⟩
  | true =>
      rw [sourcesOf] at found ⊢
      generalize entryOrNull entries "output" = output,
        entryOrNull others "output" = otherOutput at *
      cases sameOutput with
      | arr _ => cases wrapped
      | obj distinct sameKeys each same =>
          exact entriesFor_of_reorders (reorders_entryOrNull
            (.obj distinct sameKeys each same) "sources") found
      | scalar filed =>
          cases output with
          | obj _ => cases filed
          | null | bool | int | real | str | arr => cases wrapped

/-- The paths of the source entries of compiler output, in their order. -/
def sourcePaths : Json → List String
  | .obj entries =>
      match sourcesOf entries with
      | .ok sources => sources.map Prod.fst
      | .error _ => []
  | _ => []

private theorem forall₂_sources {sources others : List (String × Json)}
    (reorders : (Json.obj sources).Reorders (.obj others))
    (inOrder : sources.map Prod.fst = others.map Prod.fst) :
    List.Forall₂ EntryReorders sources others := by
  obtain ⟨moved, _, isOther, distinct, each, same⟩ := reorders.moved
  cases isOther
  have sameKeys := (Json.forall₂_entryReorders_iff.1 each).1
  rw [sameKeys] at distinct inOrder
  rw [← eq_of_perm_of_keys_eq same distinct inOrder]
  exact each

private theorem offerOf_of_reorders {value other : Json}
    (reorders : value.Reorders other) :
    (offerOf value = .nothing ∧ offerOf other = .nothing) ∨
      (offerOf value = .skipped ∧ offerOf other = .skipped) ∨
      ∃ tree otherTree, offerOf value = .tree tree ∧
        offerOf other = .tree otherTree ∧ tree.Reorders otherTree := by
  cases reorders with
  | arr _ => exact Or.inl ⟨rfl, rfl⟩
  | scalar filed =>
      cases value with
      | obj _ => cases filed
      | null | bool | int | real | str | arr => exact Or.inl ⟨rfl, rfl⟩
  | @obj fields _ otherFields distinct sameKeys each moves =>
      have same := Json.Reorders.obj distinct sameKeys each moves
      rw [offerOf, offerOf, ← isSome_of_rel (same.lookup "nodeType")]
      split
      · exact Or.inr (Or.inr ⟨_, _, rfl, rfl, same⟩)
      · have sameTree := (reorders_entryOrNull same "ast").givenOr
          (reorders_entryOrNull same "AST")
        generalize (entryOrNull fields "ast").givenOr
            (entryOrNull fields "AST") = tree,
          (entryOrNull otherFields "ast").givenOr
            (entryOrNull otherFields "AST") = otherTree at sameTree ⊢
        cases sameTree with
        | scalar filed =>
            cases tree with
            | null => exact Or.inr (Or.inl ⟨rfl, rfl⟩)
            | bool | int | real | str | arr | obj =>
                exact Or.inr (Or.inr ⟨_, _, rfl, rfl, .scalar filed⟩)
        | arr items => exact Or.inr (Or.inr ⟨_, _, rfl, rfl, .arr items⟩)
        | obj differ keys values moved =>
            exact Or.inr (Or.inr ⟨_, _, rfl, rfl, .obj differ keys values moved⟩)

private theorem forall₂_treesOf {sources others : List (String × Json)}
    (each : List.Forall₂ EntryReorders sources others) :
    List.Forall₂ EntryReorders (treesOf sources) (treesOf others) := by
  refine List.rel_filterMap ?_ each
  intro entry other sameEntry
  rcases offerOf_of_reorders sameEntry.2 with ⟨here, there⟩ | ⟨here, there⟩ |
    ⟨tree, otherTree, here, there, sameTree⟩
  · simp only [here, there]
    exact .none
  · simp only [here, there]
    exact .none
  · simp only [here, there]
    exact .some ⟨sameEntry.1, sameTree⟩

private theorem contentFor_of_reorders
    {contents others : List (String × String)}
    (sameContents : ∀ path, contents.lookup path = others.lookup path)
    (path : String) {root other : Node} (reorders : root.Reorders other)
    {content : String} (found : contentFor contents path root = .ok content) :
    contentFor others path other = .ok content := by
  have samePath := reorders.textOr "absolutePath" ""
  rw [contentFor] at found ⊢
  simp only [← sameContents]
  generalize root.textOr "absolutePath" "" = own,
    other.textOr "absolutePath" "" = otherOwn at samePath found ⊢
  cases samePath with
  | scalar _ => exact found
  | arr _ | obj _ _ _ _ =>
      split at found
      · rw [if_pos ‹_›]
        exact found
      · cases found

private theorem nodeFault?_of_reorders {node other : Node}
    (reorders : node.Reorders other) (noFault : nodeFault? node = none) :
    nodeFault? other = none := by
  rw [nodeFault?_eq_none_iff] at noFault ⊢
  rw [Node.nodeType] at noFault ⊢
  rw [← (reorders.textOr "nodeType" "").key?, ← reorders.id.key?]
  exact noFault

/-! ### Units -/

private theorem unitOf_of_reorders {contents others : List (String × String)}
    (sameContents : ∀ path, contents.lookup path = others.lookup path)
    {path : String} {tree other : Json} (reorders : tree.Reorders other)
    (settled : ∀ object ∈ tree.nodeObjects,
      (Json.looseEntries object).length ≤ 1)
    {unit : Node × String} (made : unitOf contents path tree = .ok unit) :
    ∃ otherUnit, unitOf others path other = .ok otherUnit ∧
      unit.1.Reorders otherUnit.1 ∧ unit.2 = otherUnit.2 := by
  obtain ⟨built, isUnit, noFault, found⟩ := unitOf_eq_ok_iff_built.1 made
  have sameTrees := Node.reorders_ofValue? "" false tree other reorders settled
  rw [built] at sameTrees
  cases otherBuilt : Node.ofValue? "" false other with
  | none =>
      rw [otherBuilt] at sameTrees
      cases sameTrees
  | some root =>
      rw [otherBuilt] at sameTrees
      cases sameTrees with
      | cons same _ =>
      refine ⟨(root, unit.2), unitOf_eq_ok_iff_built.2 ⟨otherBuilt,
        same.kind.symm.trans isUnit, ?_,
        contentFor_of_reorders sameContents path same found⟩, same, rfl⟩
      intro node member
      obtain ⟨original, isOriginal, sameNode⟩ :=
        exists_left_of_forall₂ (same.preorder unit.1 root) member
      exact nodeFault?_of_reorders sameNode (noFault original isOriginal)

private theorem unitsOf_of_reorders {contents others : List (String × String)}
    (sameContents : ∀ path, contents.lookup path = others.lookup path)
    {trees otherTrees : List (String × Json)}
    (each : List.Forall₂ EntryReorders trees otherTrees)
    (settled : ∀ object ∈ trees.flatMap fun entry => entry.2.nodeObjects,
      (Json.looseEntries object).length ≤ 1)
    {units : List (Node × String)} (made : unitsOf contents trees = .ok units) :
    ∃ otherUnits, unitsOf others otherTrees = .ok otherUnits ∧
      List.Forall₂
        (fun unit other => unit.1.Reorders other.1 ∧ unit.2 = other.2) units
        otherUnits := by
  rw [unitsOf_eq_ok_iff] at made
  simp only [unitsOf_eq_ok_iff]
  induction each generalizing units with
  | nil =>
      cases made
      exact ⟨[], .nil, .nil⟩
  | @cons entry other _ _ sameEntry _ inductionHypothesis =>
      cases made with
      | cons here later =>
      rw [List.flatMap_cons, List.forall_mem_append] at settled
      obtain ⟨unit, otherHere, same⟩ :=
        unitOf_of_reorders sameContents sameEntry.2 settled.1 here
      obtain ⟨units, otherLater, sameUnits⟩ :=
        inductionHypothesis settled.2 later
      rw [sameEntry.1] at otherHere
      exact ⟨unit :: units, .cons otherHere otherLater, .cons same sameUnits⟩

end Reading

namespace Compilation

private theorem OfTrees.attributes_visited {compilation : Compilation}
    {trees : List Node} (made : compilation.OfTrees trees) :
    (compilation.visited.map fun node => node.info.attributes) =
      (Node.preorderOfAll trees).map fun node => node.info.attributes := by
  rw [← made.linkedFrom.map_eq fun _ attributes => attributes]
  exact Node.map_preorderOfAll_numberAll NodeInfo.attributes
    (fun _ _ _ => rfl) none 0 trees

end Compilation

namespace Reading

/-- What holds of the objects of all nodes holds of all objects of the trees. -/
theorem forall_nodeObjects_of_visited {contents : List (String × String)}
    {entries : List (String × Json)} {units : List (Node × String)}
    {compilation : Compilation} (made : unitsOf contents entries = .ok units)
    (linked : Compilation.ofUnits units = .ok compilation)
    {P : List (String × Json) → Prop}
    (holds : ∀ node ∈ compilation.visited, P node.info.attributes) :
    ∀ object ∈ entries.flatMap fun entry => entry.2.nodeObjects, P object := by
  have ofTrees : compilation.OfTrees (treesIn entries) :=
    ⟨units, map_tree_of_unitsOf made, linked⟩
  intro object member
  have isObject := (attributes_treesIn entries).mem_iff.2 member
  rw [← ofTrees.attributes_visited] at isObject
  obtain ⟨node, visited, rfl⟩ := List.mem_map.1 isObject
  exact holds node visited

/-- The nodes of a compilation that was read can be filed. -/
theorem nodeFault?_of_visited {contents : List (String × String)}
    {entries : List (String × Json)} {units : List (Node × String)}
    {compilation : Compilation} (made : unitsOf contents entries = .ok units)
    (linked : Compilation.ofUnits units = .ok compilation) {node : Node}
    (visited : node ∈ compilation.visited) : nodeFault? node = none := by
  have ofTrees : compilation.OfTrees (units.map fun unit => unit.1) :=
    ⟨units, rfl, linked⟩
  obtain ⟨original, isOriginal, sameAttributes⟩ := exists_right_of_forall₂
    (forall₂_eq_iff.2 ofTrees.attributes_visited) visited
  rw [Node.preorderOfAll_eq_flatMap, List.flatMap_map] at isOriginal
  obtain ⟨unit, isUnit, inside⟩ := List.mem_flatMap.1 isOriginal
  obtain ⟨entry, -, built⟩ :=
    exists_left_of_forall₂ (unitsOf_eq_ok_iff.1 made) isUnit
  have noFault := (unitOf_eq_ok_iff_built.1 built).2.2.1 original inside
  rw [nodeFault?_eq_none_iff, Node.nodeType, Node.textOr, Node.attributeOr,
    Node.attribute?, Node.id, Node.attributeOr, Node.attribute?] at noFault ⊢
  rw [sameAttributes]
  exact noFault

end Reading

namespace Node

/-- The label shows the order of keys only in a name with objects. -/
theorem Reorders.label {node other : Node} (reorders : node.Reorders other)
    (noFault : Reading.nodeFault? node = none)
    (plain : ∀ name, node.name? = some name → name.holdsObject = false) :
    node.label = other.label := by
  obtain ⟨⟨typeKey, hasType⟩, idKey, hasId⟩ :=
    Reading.nodeFault?_eq_none_iff.1 noFault
  have sameType : node.nodeType = other.nodeType :=
    (reorders.textOr "nodeType" "").eq_of_filed
      (Option.isSome_of_mem hasType)
  have sameId : node.id = other.id :=
    reorders.id.eq_of_filed (Option.isSome_of_mem hasId)
  have sameName : node.name? = other.name? := by
    have found := reorders.name?
    generalize node.name? = name, other.name? = otherName at found plain ⊢
    cases found with
    | none => rfl
    | some same => rw [same.eq_of_not_holdsObject _ _ (plain _ rfl)]
  rw [Node.label, Node.label, sameType, sameId, sameName]

/-- The nodes differ in the order of keys only: in the objects of a name, and in
the order of bases that are the keys of an object. -/
structure Corresponds (node other : Node) : Prop where
  position : node.info.position = other.info.position
  parent : node.info.parent = other.info.parent
  kind : node.kind = other.kind
  target : node.info.target = other.info.target
  reference : node.referencedPosition? = other.referencedPosition?
  bases : node.info.bases.Perm other.info.bases
  listedBases : (∀ keyed, node.attribute? "linearizedBaseContracts" ≠
    some (.obj keyed)) → node.info.bases = other.info.bases
  name : Option.Rel Json.Reorders node.name? other.name?
  label : (∀ name, node.name? = some name → name.holdsObject = false) →
    node.label = other.label

private theorem Reorders.corresponds {node other : Node}
    (reorders : node.Reorders other)
    (noFault : Reading.nodeFault? node = none) : node.Corresponds other where
  position := reorders.info.position
  parent := reorders.info.parent
  kind := reorders.kind
  target := reorders.info.target
  reference := reorders.referencedPosition?
  bases := reorders.info.bases
  listedBases := reorders.info.listedBases
  name := reorders.name?
  label := reorders.label noFault

end Node

namespace Reading

/-- Compiler output is read alike in every order of its keys that keeps the
order of the sources, if at each node at most one key outside the visiting
order holds nodes.  The nodes of corresponding units are met in the same
order, with the same numbers, kinds, parents, references and labels; only the
objects in a name, and bases that are the keys of an object, follow the order
of keys. -/
theorem read_ignores_key_order {first second : Json}
    {compilation : Compilation} (reorders : first.Reorders second)
    (inOrder : sourcePaths first = sourcePaths second)
    (accepted : (read first).outcome = .ok compilation)
    (settled : ∀ node ∈ compilation.visited,
      (Json.looseEntries node.info.attributes).length ≤ 1) :
    ∃ other, (read second).outcome = .ok other ∧
      List.Forall₂
        (fun unit otherUnit => unit.content = otherUnit.content ∧
          List.Forall₂ Node.Corresponds unit.root.walk otherUnit.root.walk)
        compilation.units other.units := by
  obtain ⟨entries, contents, sources, units, rfl, hasContents, hasSources,
    hasTrees, made, linked⟩ := read_eq_ok_iff.1 accepted
  obtain ⟨-, others, rfl, -⟩ := reorders.moved
  obtain ⟨otherContents, hasOtherContents, sameContents⟩ :=
    contentsOf_of_reorders reorders hasContents
  obtain ⟨otherSources, hasOtherSources, sameSources⟩ :=
    sourcesOf_of_reorders reorders hasSources
  rw [sourcePaths, sourcePaths, hasSources, hasOtherSources] at inOrder
  have each := forall₂_sources sameSources inOrder
  have sameTrees := forall₂_treesOf each
  obtain ⟨otherUnits, otherMade, sameUnits⟩ := unitsOf_of_reorders sameContents
    sameTrees (forall_nodeObjects_of_visited made linked settled) made
  obtain ⟨other, otherLinked, sameRoots⟩ :=
    Compilation.ofUnits_of_reorders sameUnits linked
  have otherTrees : treesOf otherSources = [] → otherSources = [] := by
    intro noTrees
    rw [noTrees] at sameTrees
    rw [hasTrees (List.forall₂_nil_right_iff.1 sameTrees)] at each
    exact List.forall₂_nil_left_iff.1 each
  refine ⟨other, read_eq_ok_iff.2 ⟨others, otherContents, otherSources,
    otherUnits, rfl, hasOtherContents, hasOtherSources, otherTrees, otherMade,
    otherLinked⟩, ?_⟩
  apply forall₂_imp_of_mem sameRoots
  intro unit isUnit otherUnit same
  refine ⟨same.2, ?_⟩
  have sameWalk := same.1.preorder unit.root otherUnit.root
  rw [← Node.walk_eq_preorder, ← Node.walk_eq_preorder] at sameWalk
  apply forall₂_imp_of_mem sameWalk
  intro node inWalk otherNode sameNode
  apply sameNode.corresponds
  exact nodeFault?_of_visited made linked
    (List.mem_flatMap.2 ⟨unit, isUnit, inWalk⟩)

/-! ### A contract with its keys reversed -/

/-- The number of loose keys, the label and the bases of each node. -/
def overview (nodes : List Node) : List (Nat × String × List Nat) :=
  nodes.map fun node =>
    ((Json.looseEntries node.info.attributes).length, node.label,
      node.info.bases)

private theorem exists_read_of_overview {output : Json}
    {shown : List (Nat × String × List Nat)}
    (evaluated : ((read output).outcome.toOption.map fun compilation =>
      overview (Node.preorderOfAll
        (compilation.units.map fun unit => unit.root))) = some shown) :
    ∃ compilation, (read output).outcome = .ok compilation ∧
      overview compilation.visited = shown := by
  cases accepted : (read output).outcome with
  | error fault =>
      rw [accepted] at evaluated
      cases evaluated
  | ok compilation =>
      rw [accepted] at evaluated
      refine ⟨compilation, rfl, ?_⟩
      rw [Compilation.visited_eq_preorderOfAll]
      exact Option.some.inj evaluated

private theorem settled_of_overview {nodes : List Node}
    {shown : List (Nat × String × List Nat)} (shows : overview nodes = shown)
    (few : ∀ row ∈ shown, row.1 ≤ 1) :
    ∀ node ∈ nodes, (Json.looseEntries node.info.attributes).length ≤ 1 := by
  intro node member
  rw [← shows] at few
  exact few _ (List.mem_map_of_mem member)

private theorem reorders_values {entries others : List (String × Json)}
    (distinct : (entries.map Prod.fst).Nodup)
    (sameKeys : entries.map Prod.fst = others.map Prod.fst)
    (each : List.Forall₂ Json.Reorders (entries.map Prod.snd)
      (others.map Prod.snd)) : (Json.obj entries).Reorders (.obj others) :=
  .obj distinct sameKeys each (.refl _)

private theorem reorders_scalars {entries others : List (String × Json)}
    (distinct : (entries.map Prod.fst).Nodup)
    (scalars : ∀ value ∈ entries.map Prod.snd, value.key?.isSome = true)
    (same : entries.Perm others) : (Json.obj entries).Reorders (.obj others) :=
  .obj distinct rfl
    (List.forall₂_same.2 fun value member => .scalar (scalars value member))
    same

def tokenFields : List (String × Json) :=
  nodeEntries "ContractDefinition" (.int 2)
    [("name", .str "Token"), ("linearizedBaseContracts", .arr [.int 2]),
      ("nodes", .arr [identifierObject (.int 3) 2]),
      ("baseContracts", .arr [nodeObject "InheritanceSpecifier" (.int 4) []])]

def fileOf (nodes : List Json) : Json :=
  .obj [("a.sol", unitObject 1 nodes)]

private theorem reorders_fileOf {nodes others : List Json}
    (each : List.Forall₂ Json.Reorders nodes others) :
    (fileOf nodes).Reorders (fileOf others) := by
  have unitKeys : ["nodeType", "id", "nodes"].Nodup := by decide
  have sameUnit : (unitObject 1 nodes).Reorders (unitObject 1 others) :=
    reorders_values unitKeys rfl
      (.cons (.scalar rfl) (.cons (.scalar rfl) (.cons (.arr each) .nil)))
  exact reorders_values (List.nodup_singleton _) rfl (.cons sameUnit .nil)

private theorem reorders_tokenFields :
    (Json.obj tokenFields).Reorders (.obj tokenFields.reverse) := by
  have identifier : (identifierObject (.int 3) 2).Reorders
      (identifierObject (.int 3) 2) :=
    reorders_scalars (by decide) (by decide) (.refl _)
  have specifier : (nodeObject "InheritanceSpecifier" (.int 4) []).Reorders
      (nodeObject "InheritanceSpecifier" (.int 4) []) :=
    reorders_scalars (by decide) (by decide) (.refl _)
  refine .obj (by decide) rfl ?_ (List.reverse_perm _).symm
  exact .cons (.scalar rfl) (.cons (.scalar rfl) (.cons (.scalar rfl)
    (.cons (.arr (.cons (.scalar rfl) .nil)) (.cons (.arr (.cons identifier .nil))
      (.cons (.arr (.cons specifier .nil)) .nil)))))

theorem read_tokenFile_ignores_key_order :
    ∃ compilation other,
      (read (fileOf [.obj tokenFields])).outcome = .ok compilation ∧
      (read (fileOf [.obj tokenFields.reverse])).outcome = .ok other ∧
      overview compilation.visited =
        [(1, "<SourceUnit #1>", []), (0, "<ContractDefinition Token #2>", [1]),
          (0, "<InheritanceSpecifier #4>", []), (0, "<Identifier #3>", [])] ∧
      List.Forall₂
        (fun unit otherUnit => unit.content = otherUnit.content ∧
          List.Forall₂ Node.Corresponds unit.root.walk otherUnit.root.walk)
        compilation.units other.units := by
  have reorders := reorders_fileOf (.cons reorders_tokenFields .nil)
  obtain ⟨compilation, accepted, shown⟩ :=
    @exists_read_of_overview (fileOf [.obj tokenFields])
      [(1, "<SourceUnit #1>", []), (0, "<ContractDefinition Token #2>", [1]),
          (0, "<InheritanceSpecifier #4>", []), (0, "<Identifier #3>", [])] rfl
  have settled : ∀ node ∈ compilation.visited,
      (Json.looseEntries node.info.attributes).length ≤ 1 :=
    settled_of_overview shown (by decide)
  obtain ⟨other, otherAccepted, correspond⟩ :=
    read_ignores_key_order reorders rfl accepted settled
  exact ⟨compilation, other, accepted, otherAccepted, shown, correspond⟩

/-! ### Objects as base contracts and as a name -/

private theorem quoted_of_no_quote {text : String}
    (noQuote : '\'' ∉ text.toList) :
    Text.quoted text =
      String.ofList
        ('\'' :: text.toList.flatMap (Text.escapeChar '\'') ++ ['\'']) := by
  have unquoted : text.contains '\'' = false := by simpa using noQuote
  rw [Text.quoted, unquoted]
  rfl

def keyedFile (bases name : List (String × Json)) : Json :=
  fileOf
    [nodeObject "ContractDefinition" (.str "a")
        [("linearizedBaseContracts", .obj bases)],
      nodeObject "ContractDefinition" (.str "b") [("name", .obj name)]]

def keyedBases : List (String × Json) :=
  [("a", .int 0), ("nodeType", .str "Bases"), ("b", .int 0)]

def keyedName : List (String × Json) :=
  [("nodeType", .str "Name"), ("id", .int 2)]

private theorem reorders_keyedFile {bases otherBases name otherName :
      List (String × Json)}
    (sameBases : (Json.obj bases).Reorders (.obj otherBases))
    (sameName : (Json.obj name).Reorders (.obj otherName)) :
    (keyedFile bases name).Reorders (keyedFile otherBases otherName) := by
  have basesKeys : ["nodeType", "id", "linearizedBaseContracts"].Nodup := by
    decide
  have nameKeys : ["nodeType", "id", "name"].Nodup := by decide
  apply reorders_fileOf
  refine .cons ?_ (.cons ?_ .nil)
  · exact reorders_values basesKeys rfl
      (.cons (.scalar rfl) (.cons (.scalar rfl) (.cons sameBases .nil)))
  · exact reorders_values nameKeys rfl
      (.cons (.scalar rfl) (.cons (.scalar rfl) (.cons sameName .nil)))

private theorem spelling_keyedName :
    (Json.obj keyedName).spelling = "\x7b'nodeType': 'Name', 'id': 2\x7d" ∧
      (Json.obj keyedName.reverse).spelling =
        "\x7b'id': 2, 'nodeType': 'Name'\x7d" := by
  have nodeType := @quoted_of_no_quote "nodeType" (by decide)
  have id := @quoted_of_no_quote "id" (by decide)
  have name := @quoted_of_no_quote "Name" (by decide)
  simp only [keyedName, List.reverse_cons, List.reverse_nil, List.nil_append,
    List.cons_append, Json.spelling, Json.quotedSpelling, Json.quotedEntries,
    nodeType, id, name]
  decide +kernel

/-- With their keys reversed, the bases of one contract change places and the
label of the other reads differently. -/
theorem read_keyedFile_shows_key_order :
    (keyedFile keyedBases keyedName).Reorders
        (keyedFile keyedBases.reverse keyedName.reverse) ∧
      sourcePaths (keyedFile keyedBases keyedName) =
        sourcePaths (keyedFile keyedBases.reverse keyedName.reverse) ∧
      ∃ first second,
        (read (keyedFile keyedBases keyedName)).outcome = .ok first ∧
        (read (keyedFile keyedBases.reverse keyedName.reverse)).outcome =
          .ok second ∧
        overview first.visited =
          [(1, "<SourceUnit #1>", []), (1, "<ContractDefinition #a>", [1, 3]),
            (0, "<Bases #None>", []),
            (1, "<ContractDefinition \x7b'nodeType': 'Name', 'id': 2\x7d #b>",
              [3]),
            (0, "<Name #2>", [])] ∧
        overview second.visited =
          [(1, "<SourceUnit #1>", []), (1, "<ContractDefinition #a>", [3, 1]),
            (0, "<Bases #None>", []),
            (1, "<ContractDefinition \x7b'id': 2, 'nodeType': 'Name'\x7d #b>",
              [3]),
            (0, "<Name #2>", [])] := by
  have sameBases : (Json.obj keyedBases).Reorders (.obj keyedBases.reverse) :=
    reorders_scalars (by decide) (by decide) (List.reverse_perm _).symm
  have sameName : (Json.obj keyedName).Reorders (.obj keyedName.reverse) :=
    reorders_scalars (by decide) (by decide) (List.reverse_perm _).symm
  obtain ⟨spelled, spelledReversed⟩ := spelling_keyedName
  obtain ⟨first, accepted, shown⟩ :=
    @exists_read_of_overview (keyedFile keyedBases keyedName)
      [(1, "<SourceUnit #1>", []), (1, "<ContractDefinition #a>", [1, 3]),
        (0, "<Bases #None>", []),
        (1, "<" ++ "ContractDefinition" ++ (" " ++ (Json.obj keyedName).spelling)
            ++ " #" ++ "b" ++ ">", [3]),
        (0, "<Name #2>", [])] rfl
  obtain ⟨second, acceptedReversed, shownReversed⟩ :=
    @exists_read_of_overview (keyedFile keyedBases.reverse keyedName.reverse)
      [(1, "<SourceUnit #1>", []), (1, "<ContractDefinition #a>", [3, 1]),
        (0, "<Bases #None>", []),
        (1, "<" ++ "ContractDefinition" ++
            (" " ++ (Json.obj keyedName.reverse).spelling) ++ " #" ++ "b" ++ ">",
          [3]),
        (0, "<Name #2>", [])] rfl
  rw [spelled] at shown
  rw [spelledReversed] at shownReversed
  exact ⟨reorders_keyedFile sameBases sameName, rfl, first, second, accepted,
    acceptedReversed, shown, shownReversed⟩

end Reading

end ContractAtlas
