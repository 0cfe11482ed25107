/-
Linking trees of documents in another key order.

Corresponding trees have the same ids at the same numbers, so they have the
same index, and every reference stands for the same number in both.  Only the
keys of an object of base contracts are met in another order.
-/

import ContractAtlas.Proofs.Source.Linearization
import ContractAtlas.Proofs.Source.Rearrangement
import ContractAtlas.Proofs.Source.Shapes

namespace ContractAtlas

namespace Compilation

private theorem add_of_reorders (index : Index) {node other : Node}
    (same : node.Reorders other) : index.add node = index.add other := by
  have sameId := same.id
  rw [Index.add, Index.add, same.info.position]
  generalize node.id = id, other.id = otherId at sameId ⊢
  cases sameId with
  | scalar _ => rfl
  | arr _ => rfl
  | obj _ _ _ _ => rfl

private theorem ofNodes_of_reorders {nodes others : List Node}
    (each : List.Forall₂ Node.Reorders nodes others) :
    Index.ofNodes nodes = Index.ofNodes others := by
  rw [Index.ofNodes, Index.ofNodes]
  generalize Index.empty = index
  induction each generalizing index with
  | nil => rfl
  | cons same _ inductionHypothesis =>
      rw [List.foldl_cons, List.foldl_cons, add_of_reorders index same]
      exact inductionHypothesis (index.add _)

private theorem isContractAt_toArray (nodes : List Node) (position : Nat) :
    isContractAt nodes.toArray position =
      decide ((nodes.map Node.kind)[position]? =
        some Kind.contractDefinition) := by
  rw [isContractAt, List.getElem?_toArray, List.getElem?_map]
  cases nodes[position]? with
  | none => rfl
  | some node => simp

private theorem isContractAt_of_reorders {nodes others : List Node}
    (each : List.Forall₂ Node.Reorders nodes others) :
    isContractAt nodes.toArray = isContractAt others.toArray := by
  have sameKinds : nodes.map Node.kind = others.map Node.kind :=
    forall₂_eq_iff.1 (each.imp fun _ _ same => same.kind)
  funext position
  rw [isContractAt_toArray, isContractAt_toArray, sameKinds]

private theorem isIndexed_of_reorders (index : Index) {info other : NodeInfo}
    (same : info.Reorders other) :
    isIndexed index info = isIndexed index other := by
  have sameId := Json.Reorders.getD (same.attributes.lookup "id")
    Json.reorders_null
  rw [isIndexed, isIndexed, same.position]
  generalize (info.attributes.lookup "id").getD .null = id,
    (other.attributes.lookup "id").getD .null = otherId at sameId ⊢
  cases sameId with
  | scalar _ => rfl
  | arr _ => rfl
  | obj _ _ _ _ => rfl

private theorem targetOf_of_reorders (index : Index) {info other : NodeInfo}
    (same : info.Reorders other) :
    targetOf index info = targetOf index other := by
  have found := same.attributes.lookup "referencedDeclaration"
  rw [targetOf, targetOf]
  generalize info.attributes.lookup "referencedDeclaration" = reference,
    other.attributes.lookup "referencedDeclaration" = otherReference at found ⊢
  cases found with
  | none => rfl
  | some sameReference =>
      dsimp only
      rw [sameReference.toInt?]

/-- The contracts that keys stand for, or the contract alone. -/
def basesUnder (index : Index) (nodes : Array Node) (position : Nat)
    (keys : List (Option Json.Key)) : List Nat :=
  let bases := (keys.filterMap fun key => key.bind index.position?).filter
    (isContractAt nodes)
  if bases.isEmpty then [position] else bases

private theorem basesOf_eq_ok_iff {index : Index} {nodes : Array Node}
    {info : NodeInfo} {bases : List Nat} :
    basesOf index nodes info = .ok bases ↔
      ∃ ids, ((info.attributes.lookup "linearizedBaseContracts").getD
            (.arr [])).items = .ok ids ∧
        (∀ id ∈ ids, ∃ key, id.key? = some key) ∧
        bases = basesUnder index nodes info.position (ids.map Json.key?) := by
  rw [basesOf]
  cases ((info.attributes.lookup "linearizedBaseContracts").getD
      (.arr [])).items with
  | error fault =>
      constructor
      · intro failed
        cases failed
      · rintro ⟨ids, failed, -⟩
        cases failed
  | ok ids =>
      simp only [Except.ok.injEq, exists_eq_left']
      have linkable := @exists_baseCandidates_iff index ids
      rw [← linkable]
      cases found : baseCandidates index ids with
      | error fault =>
          constructor
          · intro failed
            cases failed
          · rintro ⟨⟨candidates, failed⟩, -⟩
            cases failed
      | ok candidates =>
          have sameBases : candidates.filterMap (fun position => position) =
              (ids.map Json.key?).filterMap fun key =>
                key.bind index.position? := by
            rw [baseCandidates_eq_ok found, List.filterMap_map,
              List.filterMap_map]
            rfl
          simp only [Except.ok.injEq, exists_eq', true_and]
          rw [sameBases, basesUnder]
          exact eq_comm

private theorem basesUnder_perm {index : Index} {nodes : Array Node}
    {position : Nat}
    {keys others : List (Option Json.Key)} (same : keys.Perm others) :
    (basesUnder index nodes position keys).Perm
      (basesUnder index nodes position others) := by
  have sameBases := (same.filterMap fun key => key.bind index.position?).filter
    (isContractAt nodes)
  rw [basesUnder, basesUnder, isEmpty_eq_of_length_eq sameBases.length_eq]
  split
  · exact .refl _
  · exact sameBases

private theorem basesUnder_of_reorders {nodes others : List Node}
    (each : List.Forall₂ Node.Reorders nodes others) (index : Index)
    (position : Nat) (keys : List (Option Json.Key)) :
    basesUnder index nodes.toArray position keys =
      basesUnder index others.toArray position keys := by
  rw [basesUnder, basesUnder, isContractAt_of_reorders each]

private theorem items_of_reorders {value other : Json}
    (same : value.Reorders other)
    {ids : List Json} (found : value.items = .ok ids) :
    ∃ others, other.items = .ok others ∧
      (ids.map Json.key?).Perm (others.map Json.key?) ∧
      ((∀ keyed, value ≠ .obj keyed) →
        ids.map Json.key? = others.map Json.key?) := by
  cases same with
  | scalar _ => exact ⟨ids, found, .refl _, fun _ => rfl⟩
  | arr each =>
      cases found
      have sameKeys := forall₂_eq_iff.1 (each.imp fun _ _ item => item.key?)
      exact ⟨_, rfl, sameKeys ▸ .refl _, fun _ => sameKeys⟩
  | @obj entries moved others _ sameKeys _ moves =>
      cases found
      refine ⟨_, rfl, ?_, fun noObject => absurd rfl (noObject entries)⟩
      have keyed := (moves.map Prod.fst).map fun key => (Json.str key).key?
      rw [← sameKeys] at keyed
      simpa only [List.map_map, Function.comp_def] using keyed

private theorem basesOf_of_reorders {index : Index} {nodes others : List Node}
    (each : List.Forall₂ Node.Reorders nodes others) {info other : NodeInfo}
    (same : info.Reorders other) {bases : List Nat}
    (found : basesOf index nodes.toArray info = .ok bases) :
    ∃ otherBases, basesOf index others.toArray other = .ok otherBases ∧
      bases.Perm otherBases ∧
      ((∀ keyed, info.attributes.lookup "linearizedBaseContracts" ≠
        some (.obj keyed)) → bases = otherBases) := by
  obtain ⟨ids, areIds, filed, rfl⟩ := basesOf_eq_ok_iff.1 found
  have listed := same.attributes.lookup "linearizedBaseContracts"
  obtain ⟨otherIds, areOtherIds, keysPerm, keysEq⟩ :=
    items_of_reorders (.getD listed (.arr .nil)) areIds
  have otherFiled : ∀ id ∈ otherIds, ∃ key, id.key? = some key := by
    intro id member
    obtain ⟨original, isOriginal, sameKey⟩ :=
      List.mem_map.1 (keysPerm.mem_iff.2 (List.mem_map_of_mem member))
    rw [← sameKey]
    exact filed original isOriginal
  refine ⟨_, basesOf_eq_ok_iff.2 ⟨otherIds, areOtherIds, otherFiled, rfl⟩,
    ?_, ?_⟩
  · rw [same.position, basesUnder_of_reorders each]
    exact basesUnder_perm keysPerm
  · intro noObject
    rw [same.position, basesUnder_of_reorders each, keysEq]
    intro keyed isObject
    cases isListed : info.attributes.lookup "linearizedBaseContracts" with
    | none =>
        rw [isListed] at isObject
        cases isObject
    | some value =>
        rw [isListed] at isObject
        exact noObject keyed (isListed.trans (congrArg some isObject))

/-- Linking does to corresponding nodes corresponding things. -/
theorem link_of_reorders {index : Index} {nodes others : List Node}
    (each : List.Forall₂ Node.Reorders nodes others)
    {info other changed : NodeInfo} (same : info.Reorders other)
    (linked : link index nodes.toArray info = .ok changed) :
    ∃ otherChanged, link index others.toArray other = .ok otherChanged ∧
      changed.Reorders otherChanged := by
  rw [link] at linked ⊢
  rw [← isIndexed_of_reorders index same, ← targetOf_of_reorders index same]
  by_cases indexed : isIndexed index info = true
  · rw [if_pos indexed] at linked ⊢
    dsimp only at linked ⊢
    by_cases isContract : info.kind = .contractDefinition
    · rw [if_pos isContract] at linked
      rw [if_pos (same.kind ▸ isContract)]
      cases found : basesOf index nodes.toArray info with
      | error fault =>
          rw [found] at linked
          cases linked
      | ok bases =>
          rw [found] at linked
          cases linked
          obtain ⟨otherBases, otherFound, samePerm, sameList⟩ :=
            basesOf_of_reorders each same found
          rw [otherFound]
          exact ⟨_, rfl, { same with
            target := rfl, bases := samePerm, listedBases := sameList }⟩
    · rw [if_neg isContract] at linked
      rw [if_neg (same.kind ▸ isContract)]
      cases linked
      exact ⟨_, rfl, { same with target := rfl }⟩
  · rw [if_neg indexed] at linked ⊢
    cases linked
    exact ⟨other, rfl, same⟩

end Compilation

namespace Node

mutual

theorem Reorders.mapInfo {change otherChange : NodeInfo → Except Fault NodeInfo}
    (follows : ∀ info other changed, info.Reorders other →
      change info = .ok changed →
        ∃ otherChanged, otherChange other = .ok otherChanged ∧
          changed.Reorders otherChanged) :
    (node other changed : Node) → node.Reorders other →
    Node.mapInfo change node = .ok changed →
      ∃ otherChanged, Node.mapInfo otherChange other = .ok otherChanged ∧
        changed.Reorders otherChanged
  | mk info below, mk otherInfo otherBelow, changed, reorders, succeeds => by
      obtain ⟨changedInfo, changedBelow, here, later, rfl⟩ :=
        mapInfo_eq_ok succeeds
      obtain ⟨otherChanged, otherHere, same⟩ :=
        follows info otherInfo changedInfo reorders.info here
      obtain ⟨others, otherLater, each⟩ := forall₂_mapInfoAll follows below
        otherBelow changedBelow reorders.children later
      exact ⟨mk otherChanged others,
        by rw [Node.mapInfo, otherHere, otherLater], .mk same each⟩

private theorem forall₂_mapInfoAll
    {change otherChange : NodeInfo → Except Fault NodeInfo}
    (follows : ∀ info other changed, info.Reorders other →
      change info = .ok changed →
        ∃ otherChanged, otherChange other = .ok otherChanged ∧
          changed.Reorders otherChanged) :
    (nodes others changed : List Node) → List.Forall₂ Reorders nodes others →
    mapInfoAll change nodes = .ok changed →
      ∃ otherChanged, mapInfoAll otherChange others = .ok otherChanged ∧
        List.Forall₂ Reorders changed otherChanged
  | [], others, changed, each, succeeds => by
      cases each
      rw [mapInfoAll] at succeeds
      cases succeeds
      exact ⟨[], by rw [mapInfoAll], .nil⟩
  | node :: rest, others, changed, each, succeeds => by
      cases each with
      | @cons _ other _ otherRest reorders otherEach =>
      obtain ⟨first, following, here, later, rfl⟩ :=
        mapInfoAll_cons_eq_ok succeeds
      obtain ⟨otherFirst, otherHere, same⟩ :=
        Reorders.mapInfo follows node other first reorders here
      obtain ⟨otherFollowing, otherLater, sameRest⟩ :=
        forall₂_mapInfoAll follows rest otherRest following otherEach later
      exact ⟨otherFirst :: otherFollowing,
        by rw [mapInfoAll, otherHere, otherLater], .cons same sameRest⟩

end

end Node

namespace Compilation

open Node (numbered)

private theorem forall₂_numbered {trees others : List Node}
    (each : List.Forall₂ Node.Reorders trees others) :
    List.Forall₂ Node.Reorders (numbered trees) (numbered others) :=
  Node.forall₂_preorderOfAll _ _ (Node.forall₂_numberAll none 0 _ _ each)

private theorem linkIn_of_reorders {trees others : List Node}
    (each : List.Forall₂ Node.Reorders trees others)
    {info other changed : NodeInfo} (same : info.Reorders other)
    (linked : linkIn trees info = .ok changed) :
    ∃ otherChanged, linkIn others other = .ok otherChanged ∧
      changed.Reorders otherChanged := by
  have sameNodes := forall₂_numbered each
  rw [linkIn, indexFor] at linked ⊢
  rw [← ofNodes_of_reorders sameNodes]
  exact link_of_reorders sameNodes same linked

/-- Units whose trees differ in the order of keys only are linked alike. -/
theorem ofUnits_of_reorders {units others : List (Node × String)}
    {compilation : Compilation}
    (each : List.Forall₂
      (fun unit other => unit.1.Reorders other.1 ∧ unit.2 = other.2) units
      others)
    (linked : ofUnits units = .ok compilation) :
    ∃ other, ofUnits others = .ok other ∧
      List.Forall₂
        (fun unit otherUnit => unit.root.Reorders otherUnit.root ∧
          unit.content = otherUnit.content) compilation.units other.units := by
  have trees : List.Forall₂ Node.Reorders (units.map fun unit => unit.1)
      (others.map fun unit => unit.1) := by
    rw [List.forall₂_map_left_iff, List.forall₂_map_right_iff]
    exact each.imp fun _ _ same => same.1
  have contents : (units.map fun unit => unit.2) =
      others.map fun unit => unit.2 :=
    forall₂_eq_iff.1 (each.imp fun _ _ same => same.2)
  have made : compilation.OfTrees (units.map fun unit => unit.1) :=
    ⟨units, rfl, linked⟩
  obtain ⟨roots, otherLinked, sameRoots⟩ := Node.forall₂_mapInfoAll
    (fun _ _ _ same found => linkIn_of_reorders trees same found) _ _ _
    (Node.forall₂_numberAll none 0 _ _ trees) made.mapInfoAll_linkIn
  have linkable : ∃ other, ofUnits others = .ok other := by
    rw [exists_ofUnits_iff_linkable]
    intro other member
    obtain ⟨node, isNode, same⟩ :=
      exists_left_of_forall₂ (forall₂_numbered trees) member
    obtain ⟨changed, found⟩ :=
      exists_ofUnits_iff_linkable.1 ⟨compilation, linked⟩ node isNode
    obtain ⟨otherChanged, otherFound, -⟩ :=
      linkIn_of_reorders trees same.info found
    exact ⟨otherChanged, otherFound⟩
  obtain ⟨other, succeeds⟩ := linkable
  have otherMade : other.OfTrees (others.map fun unit => unit.1) :=
    ⟨others, rfl, succeeds⟩
  rw [otherMade.mapInfoAll_linkIn] at otherLinked
  cases otherLinked
  rw [List.forall₂_map_left_iff, List.forall₂_map_right_iff] at sameRoots
  refine ⟨other, succeeds, List.Forall₂.mp (fun _ _ => And.intro) sameRoots
    (forall₂_eq_iff.2 ?_)⟩
  rw [map_content_of_ofUnits linked, map_content_of_ofUnits succeeds, contents]

end Compilation

end ContractAtlas
