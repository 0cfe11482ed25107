/-
What a call tree reaches.

A tree has a node for each trail of open definitions.  Trails never come back
to a definition and siblings are shown once, yet nothing is lost: a chain of
references that comes back to a definition on its trail goes on from there.
So the tree shows exactly the definitions at the end of a chain of references
through definitions that may be expanded.
-/

import Mathlib.Data.List.Chain
import ContractAtlas.Proofs.Call.Paths

namespace ContractAtlas

namespace Compilation

variable {compilation : Compilation} {options : TreeOptions}
  {root : compilation.Place}

/-- The definition is no dependency, or dependencies are included. -/
def Expandable (compilation : Compilation) (options : TreeOptions)
    (place : compilation.Place) : Prop :=
  options.includeDeps = true ∨
    ∃ path, compilation.pathOf (compilation.node place) = .str path ∧
      ∀ start ∈ options.ignorePrefixes, ¬ start.toList <+: path.toList

theorem isDependency_eq_false_iff (textual : compilation.Textual)
    (place : compilation.Place) :
    compilation.isDependency options place = .ok false ↔
      compilation.Expandable options place := by
  obtain ⟨path, spelled⟩ := exists_pathOf textual place
  unfold isDependency Expandable
  rw [spelled]
  cases included : options.includeDeps with
  | true => simp
  | false =>
      simp only [Bool.false_eq_true, if_false, hasIgnoredPath, Except.ok.injEq,
        List.any_eq_false, String.startsWith_string_iff, false_or,
        Json.str.injEq, exists_eq_left']

/-! ### Trails and chains of references -/

/-- A trail that holds a definition has a trail that ends in it. -/
theorem Trail.exists_of_mem {path : List compilation.Place}
    {place : compilation.Place}
    (trail : compilation.Trail options root path) (member : place ∈ path) :
    ∃ rest, compilation.Trail options root (place :: rest) := by
  induction trail with
  | root =>
      rw [List.mem_singleton.1 member]
      exact ⟨[], .root⟩
  | @step definition target path walked refers fresh decided
      inductionHypothesis =>
      rcases List.mem_cons.1 member with rfl | isEarlier
      · exact ⟨definition :: path, .step walked refers fresh decided⟩
      · exact inductionHypothesis isEarlier

/-- Where the chain meets its own trail again, the trail is cut back. -/
theorem Trail.exists_of_chain (textual : compilation.Textual)
    {between : List compilation.Place} {definition target : compilation.Place}
    {path : List compilation.Place}
    (trail : compilation.Trail options root (definition :: path))
    (chain : List.IsChain compilation.RefersTo
      (definition :: between ++ [target]))
    (expandable : ∀ other ∈ between, compilation.Expandable options other) :
    ∃ last rest, compilation.Trail options root (last :: rest) ∧
      compilation.RefersTo last target := by
  induction between generalizing definition path with
  | nil =>
      exact ⟨definition, path, trail, (List.isChain_cons_cons.1 chain).1⟩
  | cons next more inductionHypothesis =>
      obtain ⟨refers, later⟩ := List.isChain_cons_cons.1 chain
      obtain ⟨nextExpandable, laterExpandable⟩ :=
        List.forall_mem_cons.1 expandable
      have decided : compilation.isDependency options next = .ok false :=
        (isDependency_eq_false_iff textual next).2 nextExpandable
      by_cases met : next ∈ definition :: path
      · -- The rest of the chain starts at a definition that is open already.
        obtain ⟨rest, shorter⟩ := trail.exists_of_mem met
        exact inductionHypothesis shorter later laterExpandable
      · exact inductionHypothesis (.step trail refers met decided) later
          laterExpandable

private theorem Trail.exists_chain (textual : compilation.Textual)
    {definition target : compilation.Place} {path : List compilation.Place}
    (trail : compilation.Trail options root (definition :: path))
    (refers : compilation.RefersTo definition target) :
    ∃ between,
      List.IsChain compilation.RefersTo (root :: between ++ [target]) ∧
      ∀ other ∈ between, compilation.Expandable options other := by
  generalize sameTrail : definition :: path = whole at trail
  induction trail generalizing definition target path with
  | root =>
      cases sameTrail
      exact ⟨[], .cons_cons refers (.singleton target), by simp⟩
  | @step earlier last rest walked lastRefers fresh decided
      inductionHypothesis =>
      cases sameTrail
      obtain ⟨between, chain, expandable⟩ := inductionHypothesis lastRefers rfl
      refine ⟨between ++ [last], ?_, ?_⟩
      · rw [← List.cons_append, List.isChain_append]
        refine ⟨chain, .singleton target, ?_⟩
        intro front isFront back isBack
        rw [List.getLast?_concat] at isFront
        cases isFront
        cases isBack
        exact refers
      · intro other member
        rcases List.mem_append.1 member with isEarlier | isLast
        · exact expandable other isEarlier
        · rw [List.mem_singleton.1 isLast]
          exact (isDependency_eq_false_iff textual last).1 decided

/-! ### Trails and tree nodes -/

theorem callable_injective {place other : compilation.Place}
    (same : compilation.callable place = compilation.callable other) :
    place = other :=
  Fin.ext (congrArg Callable.position same)

theorem Shows.declaration {path : List compilation.Place}
    {target : compilation.Place} {classification : Classification}
    {node : CallNode}
    (shows : compilation.Shows options path (.declared target classification)
      node) :
    node.info.declaration = some (compilation.callable target) := by
  cases shows with
  | recursive | dependency | expanded => rfl

theorem Shows.exists_target {path : List compilation.Place}
    {site : Site compilation} {target : compilation.Place} {node : CallNode}
    (shows : compilation.Shows options path site node)
    (declared : node.info.declaration = some (compilation.callable target)) :
    ∃ classification, site = .declared target classification := by
  cases shows with
  | lowLevel | unresolved => cases declared
  | recursive classification | dependency classification
  | expanded classification =>
      rw [callable_injective (Option.some.inj declared)]
      exact ⟨classification, rfl⟩

theorem Shows.opens {path : List compilation.Place}
    {target : compilation.Place} {classification : Classification}
    {node : CallNode}
    (shows : compilation.Shows options path (.declared target classification)
      node)
    (fresh : target ∉ path)
    (decided : compilation.isDependency options target = .ok false) :
    compilation.Opens options target path node := by
  cases shows with
  | recursive _ onPath => exact absurd onPath fresh
  | dependency _ _ dependency =>
      rw [decided] at dependency
      cases dependency
  | expanded _ _ _ opened =>
      exact ⟨⟨rfl, rfl⟩, expand_eq_ok_iff.1 opened⟩

/-- A node that is open at a definition has a child for each target. -/
theorem Opens.exists_child (textual : compilation.Textual)
    {definition target : compilation.Place} {path : List compilation.Place}
    {node : CallNode} (opens : compilation.Opens options definition path node)
    (refers : compilation.RefersTo definition target) :
    ∃ child ∈ node.children, ∃ classification,
      compilation.Shows options (definition :: path)
        (.declared target classification) child := by
  obtain ⟨classification, isSite⟩ :=
    (declared_mem_sites_iff textual options definition target).2 refers
  obtain ⟨child, member, shows⟩ := exists_right_of_forall₂ opens.children isSite
  exact ⟨child, member, classification, shows⟩

theorem Trail.exists_pathTo {tree : CallNode}
    (opens : compilation.Opens options root [] tree)
    {definition : compilation.Place} {path : List compilation.Place}
    (trail : compilation.Trail options root (definition :: path)) :
    ∃ ancestors node, tree.PathTo ancestors node ∧
      compilation.Opens options definition path node := by
  generalize sameTrail : definition :: path = whole at trail
  induction trail generalizing definition path with
  | root =>
      cases sameTrail
      exact ⟨[], tree, .root, opens⟩
  | @step earlier last rest walked refers fresh decided inductionHypothesis =>
      cases sameTrail
      obtain ⟨ancestors, node, reached, nodeOpens⟩ := inductionHypothesis rfl
      obtain ⟨classification, isSite⟩ :=
        refers.exists_site (stop_notMem_of_forall₂ nodeOpens.children)
      obtain ⟨child, member, shows⟩ :=
        exists_right_of_forall₂ nodeOpens.children isSite
      exact ⟨node :: ancestors, child, .child reached member,
        shows.opens fresh decided⟩

/-- The nodes below the root show what the ends of trails refer to. -/
theorem exists_node_iff_exists_trail (textual : compilation.Textual)
    {tree : CallNode} (opens : compilation.Opens options root [] tree)
    (target : compilation.Place) :
    (∃ parent ancestors node, tree.PathTo (parent :: ancestors) node ∧
        node.info.declaration = some (compilation.callable target)) ↔
      ∃ definition path,
        compilation.Trail options root (definition :: path) ∧
        compilation.RefersTo definition target := by
  constructor
  · rintro ⟨parent, ancestors, node, reached, declared⟩
    obtain ⟨places, lines, stands⟩ := stands_of_pathTo textual opens reached
    cases stands with
    | root => cases lines
    | @shown definition path site node trail isSite shows =>
        obtain ⟨classification, rfl⟩ := shows.exists_target declared
        exact ⟨definition, path, trail,
          (declared_mem_sites_iff textual options definition target).1
            ⟨classification, isSite⟩⟩
  · rintro ⟨definition, path, trail, refers⟩
    obtain ⟨ancestors, node, reached, nodeOpens⟩ :=
      trail.exists_pathTo opens
    obtain ⟨child, member, classification, shows⟩ :=
      nodeOpens.exists_child textual refers
    exact ⟨node, ancestors, child, .child reached member, shows.declaration⟩

/-- Below its root, the call tree of a function or modifier shows exactly the
definitions at the end of a chain of references that starts at the root and
goes through definitions that may be expanded. -/
theorem callTree_shows_reachable (compilation : Compilation)
    (textual : compilation.Textual) (options : TreeOptions)
    (root : compilation.Place)
    (callable : (compilation.node root).kind.isCallable = true) :
    ∃ tree, (compilation.callTree options root).outcome = .ok tree ∧
      ∀ target,
        (∃ parent ancestors node, tree.PathTo (parent :: ancestors) node ∧
            node.info.declaration = some (compilation.callable target)) ↔
          ∃ between,
            List.IsChain compilation.RefersTo (root :: between ++ [target]) ∧
            ∀ other ∈ between, compilation.Expandable options other := by
  obtain ⟨tree, built, opens⟩ := exists_callTree textual options callable
  refine ⟨tree, built, fun target => ?_⟩
  rw [exists_node_iff_exists_trail textual opens]
  constructor
  · rintro ⟨definition, path, trail, refers⟩
    exact trail.exists_chain textual refers
  · rintro ⟨between, chain, expandable⟩
    exact Trail.exists_of_chain textual .root chain expandable

theorem refersTo_ping_pong : pingPong.RefersTo ping pong where
  other := by decide
  callable := rfl
  pointed := by
    refine ⟨_, .single List.mem_cons_self, ?_, rfl⟩
    rintro ⟨isCall, -⟩
    cases isCall

theorem refersTo_pong_ping : pingPong.RefersTo pong ping where
  other := by decide
  callable := rfl
  pointed := by
    refine ⟨_, .single List.mem_cons_self, ?_, rfl⟩
    rintro ⟨isCall, -⟩
    cases isCall

/-- The root is itself below the root, behind the function that calls it. -/
theorem callTree_pingPong_shows_ping :
    (Reading.read (Sample.file pingPongUnits)).outcome = .ok pingPong ∧
      pingPong.Textual ∧ (pingPong.node ping).kind.isCallable = true ∧
      ∃ tree,
        (pingPong.callTree { ignorePrefixes := ["lib/"] } ping).outcome =
          .ok tree ∧
        ∃ parent ancestors node, tree.PathTo (parent :: ancestors) node ∧
          node.info.declaration = some (pingPong.callable ping) := by
  obtain ⟨tree, built, shows⟩ :=
    callTree_shows_reachable pingPong textual_pingPong
      { ignorePrefixes := ["lib/"] } ping rfl
  refine ⟨read_pingPong, textual_pingPong, rfl, tree, built,
    (shows ping).2 ⟨[pong], ?_, ?_⟩⟩
  · exact .cons_cons refersTo_ping_pong
      (.cons_cons refersTo_pong_ping (.singleton ping))
  · intro other member
    rw [List.mem_singleton.1 member]
    exact Or.inr ⟨_, pathOf_pong, by decide⟩

end Compilation

end ContractAtlas
