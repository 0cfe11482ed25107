/-
Paths from the root of a call tree.

The definitions that are open on the way to a node form a trail: each refers
to the next, none comes twice, and none but the root is a dependency.  A
target that is on the trail is marked as recursive and stays a leaf, which is
all that ends the expansion when references form cycles.
-/

import Mathlib.Data.List.Nodup
import ContractAtlas.Proofs.Call.Expansion

namespace ContractAtlas

namespace CallNode

/-- A node in the tree of a root, with the nodes above it, nearest first. -/
inductive PathTo (root : CallNode) : List CallNode → CallNode → Prop
  | root : PathTo root [] root
  | child {ancestors : List CallNode} {parent node : CallNode}
      (reached : PathTo root ancestors parent)
      (member : node ∈ parent.children) : PathTo root (parent :: ancestors) node

/-- The position of the definition behind a node. -/
def position? (node : CallNode) : Option Nat :=
  node.info.declaration.map Callable.position

/-- The position of the definition behind a node that is not recursive. -/
def openPosition? (node : CallNode) : Option Nat :=
  if node.info.recursive then none else node.position?

/-- How a node relates to those above it, nearest first. -/
structure CutAtAncestors (ancestors : List CallNode) (node : CallNode) :
    Prop where
  distinct : ((node :: ancestors).filterMap openPosition?).Nodup
  recursive_iff : ∀ position, node.position? = some position →
    (node.info.recursive = true ↔
      ∃ ancestor ∈ ancestors, ancestor.position? = some position)
  leaf : node.info.recursive = true ∨ node.info.declaration = none →
    node.children = []
  parent : ∀ parent ∈ ancestors.head?, ∀ position,
    node.position? = some position → parent.position? ≠ some position

end CallNode

namespace Compilation

variable (compilation : Compilation) (options : TreeOptions)
  (root : compilation.Place)

/-- The definitions that are open at once below a root, innermost first. -/
inductive Trail : List compilation.Place → Prop
  | root : Trail [root]
  | step {definition target : compilation.Place}
      {path : List compilation.Place} (walked : Trail (definition :: path))
      (refers : compilation.RefersTo definition target)
      (fresh : target ∉ definition :: path)
      (decided : compilation.isDependency options target = .ok false) :
      Trail (target :: definition :: path)

/-- The node shows the definition at a place, and not as recursive. -/
def OpenAt (node : CallNode) (place : compilation.Place) : Prop :=
  node.info.declaration = some (compilation.callable place) ∧
    node.info.recursive = false

/-- The node has the sites of a definition as children. -/
structure Opens (definition : compilation.Place)
    (path : List compilation.Place) (node : CallNode) : Prop where
  openAt : compilation.OpenAt node definition
  children :
    List.Forall₂ (compilation.Shows options (definition :: path))
      (compilation.sites options definition) node.children

/-- The node is the root, or it shows a site of the innermost definition of a
trail. -/
inductive Stands : List compilation.Place → CallNode → Prop
  | root {node : CallNode} (opens : compilation.Opens options root [] node) :
      Stands [] node
  | shown {definition : compilation.Place} {path : List compilation.Place}
      {site : Site compilation} {node : CallNode}
      (trail : compilation.Trail options root (definition :: path))
      (member : site ∈ compilation.sites options definition)
      (shows : compilation.Shows options (definition :: path) site node) :
      Stands (definition :: path) node

variable {compilation options root}

theorem Trail.nodup {path : List compilation.Place}
    (trail : compilation.Trail options root path) : path.Nodup := by
  induction trail with
  | root => exact List.nodup_singleton root
  | step walked refers fresh decided inductionHypothesis =>
      exact List.nodup_cons.2 ⟨fresh, inductionHypothesis⟩

/-! ### What stands at the end of a path -/

private theorem Stands.opens_of_mem (textual : compilation.Textual)
    {path : List compilation.Place} {node child : CallNode}
    (stands : compilation.Stands options root path node)
    (member : child ∈ node.children) :
    ∃ definition, compilation.Opens options definition path node ∧
      compilation.Trail options root (definition :: path) := by
  cases stands with
  | root opens => exact ⟨root, opens, .root⟩
  | @shown definition path site node trail isSite shows =>
      cases shows with
      | lowLevel | unresolved | recursive | dependency => cases member
      | @expanded target classification children fresh decided opened =>
          have refers : compilation.RefersTo definition target :=
            (declared_mem_sites_iff textual options definition target).1
              ⟨classification, isSite⟩
          exact ⟨target, ⟨⟨rfl, rfl⟩, expand_eq_ok_iff.1 opened⟩,
            .step trail refers fresh decided⟩

/-- The nodes above a node are open at the definitions of a trail. -/
theorem stands_of_pathTo (textual : compilation.Textual) {tree : CallNode}
    (opens : compilation.Opens options root [] tree)
    {ancestors : List CallNode} {node : CallNode}
    (reached : tree.PathTo ancestors node) :
    ∃ path, List.Forall₂ compilation.OpenAt ancestors path ∧
      compilation.Stands options root path node := by
  induction reached with
  | root => exact ⟨[], .nil, .root opens⟩
  | child reached member inductionHypothesis =>
      obtain ⟨path, lines, stands⟩ := inductionHypothesis
      obtain ⟨definition, parentOpens, trail⟩ :=
        stands.opens_of_mem textual member
      obtain ⟨site, isSite, shows⟩ :=
        exists_left_of_forall₂ parentOpens.children member
      exact ⟨definition :: path, .cons parentOpens.openAt lines,
        .shown trail isSite shows⟩

theorem position?_of_openAt {node : CallNode} {place : compilation.Place}
    (openAt : compilation.OpenAt node place) :
    node.position? = some place.val := by
  rw [CallNode.position?, openAt.1]
  rfl

private theorem openPosition?_of_openAt {node : CallNode}
    {place : compilation.Place}
    (openAt : compilation.OpenAt node place) :
    node.openPosition? = some place.val := by
  rw [CallNode.openPosition?, openAt.2, position?_of_openAt openAt]
  rfl

private theorem filterMap_openPosition? {ancestors : List CallNode}
    {path : List compilation.Place}
    (lines : List.Forall₂ compilation.OpenAt ancestors path) :
    ancestors.filterMap CallNode.openPosition? = path.map Fin.val :=
  filterMap_eq_map lines fun _ _ => openPosition?_of_openAt

private theorem exists_ancestor_iff {ancestors : List CallNode}
    {path : List compilation.Place}
    (lines : List.Forall₂ compilation.OpenAt ancestors path)
    (target : compilation.Place) :
    (∃ ancestor ∈ ancestors, ancestor.position? = some target.val) ↔
      target ∈ path := by
  induction lines with
  | nil => simp
  | @cons ancestor place ancestors path openAt lines inductionHypothesis =>
      simp only [List.mem_cons, exists_eq_or_imp, inductionHypothesis,
        position?_of_openAt openAt, Option.some_inj, Fin.val_inj]
      exact or_congr_left eq_comm

/-- A node that shows a target below a trail is cut if it is recursive exactly
when the target is on the trail. -/
theorem cutAtAncestors_of_declared {ancestors : List CallNode}
    {definition target : compilation.Place} {path : List compilation.Place}
    {node : CallNode}
    (lines : List.Forall₂ compilation.OpenAt ancestors (definition :: path))
    (trail : compilation.Trail options root (definition :: path))
    (other : target ≠ definition)
    (declared : node.info.declaration = some (compilation.callable target))
    (flagged : node.info.recursive = true ↔ target ∈ definition :: path)
    (leaf : node.info.recursive = true → node.children = []) :
    node.CutAtAncestors ancestors := by
  have position : node.position? = some target.val := by
    rw [CallNode.position?, declared]
    rfl
  constructor
  · cases recursive : node.info.recursive with
    | true =>
        have closed : node.openPosition? = none := by
          rw [CallNode.openPosition?, recursive]
          rfl
        rw [List.filterMap_cons_none closed, filterMap_openPosition? lines]
        exact trail.nodup.map fun _ _ => Fin.ext
    | false =>
        have fresh : target ∉ definition :: path := by
          rw [← flagged, recursive]
          exact Bool.false_ne_true
        rw [List.filterMap_cons_some
            (openPosition?_of_openAt ⟨declared, recursive⟩),
          filterMap_openPosition? lines, ← List.map_cons]
        exact (List.nodup_cons.2 ⟨fresh, trail.nodup⟩).map fun _ _ => Fin.ext
  · intro place isPlace
    rw [← Option.some.inj (position.symm.trans isPlace), flagged,
      exists_ancestor_iff lines]
  · rintro (recursive | undeclared)
    · exact leaf recursive
    · rw [declared] at undeclared
      cases undeclared
  · intro parent isParent place isPlace same
    cases lines with
    | cons parentOpen lines =>
        cases isParent
        rw [position?_of_openAt parentOpen, ← isPlace, position] at same
        exact other (Fin.ext (Option.some.inj same)).symm

/-- A node without a definition is a leaf and adds nothing to its path. -/
theorem cutAtAncestors_of_undeclared {ancestors : List CallNode}
    {path : List compilation.Place} {info : CallInfo}
    (lines : List.Forall₂ compilation.OpenAt ancestors path)
    (trail : compilation.Trail options root path)
    (undeclared : info.declaration = none) :
    (CallNode.mk info []).CutAtAncestors ancestors := by
  have nowhere : (CallNode.mk info []).position? = none := by
    rw [CallNode.position?, CallNode.info, undeclared]
    rfl
  have closed : (CallNode.mk info []).openPosition? = none := by
    rw [CallNode.openPosition?, nowhere, ite_self]
  constructor
  · rw [List.filterMap_cons_none closed, filterMap_openPosition? lines]
    exact trail.nodup.map fun _ _ => Fin.ext
  · intro position isPosition
    rw [nowhere] at isPosition
    cases isPosition
  · intro _
    rfl
  · intro parent _ position isPosition
    rw [nowhere] at isPosition
    cases isPosition

private theorem cutAtAncestors_of_opens {node : CallNode}
    (opens : compilation.Opens options root [] node) :
    node.CutAtAncestors [] := by
  constructor
  · rw [List.filterMap_cons_some (openPosition?_of_openAt opens.openAt)]
    exact List.nodup_singleton _
  · intro position _
    rw [opens.openAt.2]
    simp
  · rw [opens.openAt.1, opens.openAt.2]
    simp
  · intro parent isParent
    cases isParent

private theorem Stands.cutAtAncestors (textual : compilation.Textual)
    {ancestors : List CallNode} {path : List compilation.Place}
    {node : CallNode}
    (lines : List.Forall₂ compilation.OpenAt ancestors path)
    (stands : compilation.Stands options root path node) :
    node.CutAtAncestors ancestors := by
  cases stands with
  | root opens =>
      rw [List.forall₂_nil_right_iff.1 lines]
      exact cutAtAncestors_of_opens opens
  | @shown definition path site node trail isSite shows =>
      have otherThan : ∀ {target : compilation.Place}
          {classification : Classification},
          site = .declared target classification → target ≠ definition := by
        intro target classification same
        exact ((declared_mem_sites_iff textual options definition target).1
          ⟨classification, same ▸ isSite⟩).other
      cases shows with
      | lowLevel kind => exact cutAtAncestors_of_undeclared lines trail rfl
      | unresolved name src =>
          exact cutAtAncestors_of_undeclared lines trail rfl
      | recursive classification onPath =>
          exact cutAtAncestors_of_declared lines trail (otherThan rfl) rfl
            (iff_of_true rfl onPath) fun _ => rfl
      | dependency classification fresh decided =>
          exact cutAtAncestors_of_declared lines trail (otherThan rfl) rfl
            (iff_of_false Bool.false_ne_true fresh) fun _ => rfl
      | expanded classification fresh decided opened =>
          exact cutAtAncestors_of_declared lines trail (otherThan rfl) rfl
            (iff_of_false Bool.false_ne_true fresh)
            fun impossible => absurd impossible Bool.false_ne_true

private theorem Stands.exists_callable {path : List compilation.Place}
    {node : CallNode} (stands : compilation.Stands options root path node)
    {declaration : Callable}
    (declared : node.info.declaration = some declaration) :
    ∃ place, declaration = compilation.callable place := by
  cases stands with
  | root opens =>
      exact ⟨root, Option.some.inj (declared.symm.trans opens.openAt.1)⟩
  | shown trail isSite shows =>
      cases shows with
      | lowLevel | unresolved => cases declared
      | recursive | dependency | expanded =>
          exact ⟨_, (Option.some.inj declared).symm⟩

/-! ### Every tree -/

theorem exists_callTree_of_expand
    (callable : (compilation.node root).kind.isCallable = true)
    {children : List CallNode}
    (expanded : (compilation.expand options [root]
      (compilation.sites options root)).outcome = .ok children) :
    ∃ tree, (compilation.callTree options root).outcome = .ok tree ∧
      compilation.Opens options root [] tree := by
  exact ⟨_, callTree_eq_ok_iff.2 ⟨callable, children, expanded, rfl⟩,
    ⟨rfl, rfl⟩, expand_eq_ok_iff.1 expanded⟩

theorem exists_callTree (textual : compilation.Textual)
    (options : TreeOptions) {root : compilation.Place}
    (callable : (compilation.node root).kind.isCallable = true) :
    ∃ tree, (compilation.callTree options root).outcome = .ok tree ∧
      compilation.Opens options root [] tree := by
  obtain ⟨children, expanded⟩ :=
    exists_expand textual options [root] (stop_notMem_sites textual options root)
  exact exists_callTree_of_expand callable expanded

/-- The call tree of a function or modifier exists, whatever cycles the
references form.  On each of its paths the definitions of the nodes that are
not recursive are distinct, a node is recursive exactly when its definition is
that of a node above it, recursive nodes and nodes without a definition are
leaves, and no node has the definition of its parent. -/
theorem callTree_cuts_at_ancestors (compilation : Compilation)
    (textual : compilation.Textual) (options : TreeOptions)
    (root : compilation.Place)
    (callable : (compilation.node root).kind.isCallable = true) :
    ∃ tree, (compilation.callTree options root).outcome = .ok tree ∧
      tree.info.declaration = some (compilation.callable root) ∧
      ∀ ancestors node, tree.PathTo ancestors node →
        (∀ declaration ∈ node.info.declaration,
          ∃ place, declaration = compilation.callable place) ∧
        node.CutAtAncestors ancestors := by
  obtain ⟨tree, built, opens⟩ := exists_callTree textual options callable
  refine ⟨tree, built, opens.openAt.1, ?_⟩
  intro ancestors node reached
  obtain ⟨path, lines, stands⟩ := stands_of_pathTo textual opens reached
  constructor
  · intro declaration declared
    exact stands.exists_callable declared
  · exact stands.cutAtAncestors textual lines

theorem callTree_pingPong_cuts :
    (Reading.read (Sample.file pingPongUnits)).outcome = .ok pingPong ∧
      pingPong.Textual ∧ (pingPong.node ping).kind.isCallable = true ∧
      ∃ tree,
        (pingPong.callTree { ignorePrefixes := ["lib/"] } ping).outcome =
          .ok tree ∧
        ∀ ancestors node, tree.PathTo ancestors node →
          node.CutAtAncestors ancestors := by
  obtain ⟨tree, built, -, paths⟩ :=
    callTree_cuts_at_ancestors pingPong textual_pingPong
      { ignorePrefixes := ["lib/"] } ping rfl
  refine ⟨read_pingPong, textual_pingPong, rfl, tree, built, ?_⟩
  intro ancestors node reached
  exact (paths ancestors node reached).2

end Compilation

end ContractAtlas
