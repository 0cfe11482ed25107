/-
Dependencies in a call tree.

A tree that leaves dependencies closed is the tree that expands them, cut off
at the nodes of dependencies.  A node is closed where it stands, so nothing
changes elsewhere: the definitions on the path to another node, the targets
and names that were met before it and the class of its call do not depend on
what is expanded.  With more paths to ignore, a tree is cut off at more nodes.
-/

import ContractAtlas.Proofs.Call.FirstReference

namespace ContractAtlas

/-- The source path of a definition starts with one of the given texts. -/
def Callable.isUnder (starts : List String) (declaration : Callable) : Bool :=
  match declaration.path.value with
  | .str path => starts.any fun start => path.startsWith start
  | _ => false

namespace CallNode

def isUnder (starts : List String) (node : CallNode) : Bool :=
  node.info.declaration.any (Callable.isUnder starts)

mutual

/-- A tree without what is below the nodes whose source path starts with one
of the given texts. -/
def cut (starts : List String) : CallNode → CallNode
  | mk info children =>
      if (mk info children).isUnder starts then mk info []
      else mk info (cutAll starts children)

def cutAll (starts : List String) : List CallNode → List CallNode
  | [] => []
  | node :: rest => cut starts node :: cutAll starts rest

end

/-- A tree that is cut below its root, which stays open. -/
def cutBelow (starts : List String) (root : CallNode) : CallNode :=
  mk root.info (cutAll starts root.children)

private theorem cut_leaf (starts : List String) (info : CallInfo) :
    (mk info []).cut starts = mk info [] := by
  rw [cut, cutAll, ite_self]

theorem isUnder_nil (node : CallNode) : node.isUnder [] = false := by
  unfold isUnder
  cases node.info.declaration with
  | none => rfl
  | some declaration =>
      rw [Option.any_some, Callable.isUnder]
      split
      · rfl
      · rfl

mutual

theorem cut_nil (node : CallNode) : node.cut [] = node := by
  cases node with
  | mk info children =>
      rw [cut, isUnder_nil, if_neg Bool.false_ne_true, cutAll_nil children]

theorem cutAll_nil (nodes : List CallNode) : cutAll [] nodes = nodes := by
  cases nodes with
  | nil => rfl
  | cons node rest => rw [cutAll, cut_nil node, cutAll_nil rest]

end

theorem cutBelow_nil (root : CallNode) : root.cutBelow [] = root := by
  cases root with
  | mk info children =>
      rw [cutBelow, cutAll_nil]
      rfl

/-- Some nodes of the first tree lose all their children.  The others stay as
they are and where they are. -/
inductive PrunesTo : CallNode → CallNode → Prop
  | closed (info : CallInfo) (children : List CallNode) :
      PrunesTo (mk info children) (mk info [])
  | kept (info : CallInfo) {children others : List CallNode}
      (below : List.Forall₂ PrunesTo children others) :
      PrunesTo (mk info children) (mk info others)

mutual

private theorem prunesTo_cut (starts : List String) (node : CallNode) :
    node.PrunesTo (node.cut starts) := by
  cases node with
  | mk info children =>
      rw [cut]
      split
      · exact .closed info children
      · exact .kept info (prunesTo_cutAll starts children)

private theorem prunesTo_cutAll (starts : List String) (nodes : List CallNode) :
    List.Forall₂ PrunesTo nodes (cutAll starts nodes) := by
  cases nodes with
  | nil => exact .nil
  | cons node rest =>
      exact .cons (prunesTo_cut starts node) (prunesTo_cutAll starts rest)

end

private theorem prunesTo_cutBelow (starts : List String) (root : CallNode) :
    root.PrunesTo (root.cutBelow starts) := by
  cases root with
  | mk info children => exact .kept info (prunesTo_cutAll starts children)

end CallNode

namespace TreeOptions

/-- How the source paths of the definitions start that stay closed. -/
def closedStarts (options : TreeOptions) : List String :=
  if options.includeDeps then [] else options.ignorePrefixes

/-- The second options show the same calls and close more definitions. -/
structure ClosesMore (fewer more : TreeOptions) : Prop where
  static : fewer.noStatic = more.noStatic
  lowLevel : fewer.includeLowLevel = more.includeLowLevel
  closed : fewer.closedStarts ⊆ more.closedStarts

end TreeOptions

namespace Compilation

variable {compilation : Compilation} {fewer more : TreeOptions}

private theorem value_pathDatum (node : Node) :
    (compilation.pathDatum node).value = compilation.pathOf node := by
  unfold pathDatum pathOf
  split
  · rfl
  · rfl

private theorem isDependency_eq (textual : compilation.Textual)
    (options : TreeOptions)
    (target : compilation.Place) :
    compilation.isDependency options target =
      .ok ((compilation.callable target).isUnder options.closedStarts) := by
  obtain ⟨path, spelled⟩ := exists_pathOf textual target
  have shown : (compilation.callable target).path.value = .str path :=
    (value_pathDatum _).trans spelled
  unfold isDependency Callable.isUnder TreeOptions.closedStarts
  rw [spelled, shown]
  split
  · rfl
  · rfl

private theorem isUnder_mono {starts moreStarts : List String}
    (included : starts ⊆ moreStarts) {declaration : Callable}
    (under : declaration.isUnder starts = true) :
    declaration.isUnder moreStarts = true := by
  unfold Callable.isUnder at under ⊢
  split at under
  · rw [List.any_eq_true] at under ⊢
    obtain ⟨start, member, starting⟩ := under
    exact ⟨start, included member, starting⟩
  · cases under

private theorem sitesAmong_eq_of_closesMore (closes : fewer.ClosesMore more)
    (definition : compilation.Place) (targets : List compilation.Place)
    (names : List Json.Key) (nodes : List Node) :
    compilation.sitesAmong fewer definition targets names nodes =
      compilation.sitesAmong more definition targets names nodes := by
  induction nodes generalizing targets names with
  | nil => rfl
  | cons node rest inductionHypothesis =>
      simp only [sitesAmong, closes.static, closes.lowLevel,
        inductionHypothesis]

private theorem sites_eq_of_closesMore (closes : fewer.ClosesMore more)
    (definition : compilation.Place) :
    compilation.sites fewer definition = compilation.sites more definition :=
  sitesAmong_eq_of_closesMore closes definition [] [] _

private theorem cut_targetNode_of_isUnder {starts : List String}
    {target : compilation.Place}
    (under : (compilation.callable target).isUnder starts = true)
    (classification : Classification) (recursive : Bool)
    (children : List CallNode) :
    (compilation.targetNode target classification recursive children).cut
        starts =
      compilation.targetNode target classification recursive [] := by
  rw [targetNode, CallNode.cut, if_pos]
  · rfl
  · exact under

private theorem cut_targetNode_of_not_isUnder {starts : List String}
    {target : compilation.Place}
    (apart : ¬ (compilation.callable target).isUnder starts = true)
    (classification : Classification) (recursive : Bool)
    (children : List CallNode) :
    (compilation.targetNode target classification recursive children).cut
        starts =
      compilation.targetNode target classification recursive
        (CallNode.cutAll starts children) := by
  rw [targetNode, CallNode.cut, if_neg]
  · rfl
  · exact apart

/-- Where more definitions stay closed, the same sites are shown by the nodes
after they are cut. -/
theorem forall₂_shows_cutAll (textual : compilation.Textual)
    (closes : fewer.ClosesMore more)
    {path : List compilation.Place} {sites : List (Site compilation)}
    {nodes : List CallNode}
    (shown : List.Forall₂ (compilation.Shows fewer path) sites nodes) :
    List.Forall₂ (compilation.Shows more path) sites
      (CallNode.cutAll more.closedStarts nodes) := by
  induction left : compilation.unvisited path using Nat.strongRecOn
    generalizing path sites nodes with
  | ind _ pathHypothesis =>
      subst left
      -- The outer hypothesis is for the children of a node that stays open.
      induction shown with
      | nil => exact .nil
      | cons shows later laterHypothesis =>
          refine .cons ?_ laterHypothesis
          cases shows with
          | lowLevel kind =>
              rw [CallNode.cut_leaf]
              exact .lowLevel kind
          | unresolved name src =>
              rw [CallNode.cut_leaf]
              exact .unresolved name src
          | recursive classification onPath =>
              rw [targetNode, CallNode.cut_leaf]
              exact .recursive classification onPath
          | @dependency target classification fresh decided =>
              rw [isDependency_eq textual] at decided
              have under := isUnder_mono closes.closed (Except.ok.inj decided)
              rw [targetNode, CallNode.cut_leaf]
              apply Shows.dependency classification fresh
              rw [isDependency_eq textual, under]
          | @expanded target classification children fresh decided opened =>
              by_cases under :
                  (compilation.callable target).isUnder more.closedStarts = true
              · rw [cut_targetNode_of_isUnder under]
                apply Shows.dependency classification fresh
                rw [isDependency_eq textual, under]
              · have below := pathHypothesis _
                  (compilation.unvisited_cons_lt fresh)
                  (expand_eq_ok_iff.1 opened) rfl
                rw [sites_eq_of_closesMore closes] at below
                rw [cut_targetNode_of_not_isUnder under]
                apply Shows.expanded classification fresh
                · rw [isDependency_eq textual, Bool.eq_false_iff.2 under]
                · exact expand_eq_ok_iff.2 below

private theorem callTree_cutBelow (textual : compilation.Textual)
    (closes : fewer.ClosesMore more)
    {root : compilation.Place} {tree : CallNode}
    (built : (compilation.callTree fewer root).outcome = .ok tree) :
    (compilation.callTree more root).outcome =
      .ok (tree.cutBelow more.closedStarts) := by
  obtain ⟨callable, children, expanded, rfl⟩ := callTree_eq_ok_iff.1 built
  have shown := forall₂_shows_cutAll textual closes (expand_eq_ok_iff.1 expanded)
  rw [sites_eq_of_closesMore closes] at shown
  exact callTree_eq_ok_iff.2
    ⟨callable, _, expand_eq_ok_iff.2 shown, rfl⟩

/-- The call tree that leaves dependencies closed is the one that expands
them, after all children of the nodes below the root are removed whose source
path starts with one of the ignored texts.  So some nodes lose all their
children, and the other nodes stay as they are and where they are.  With more
texts to ignore the tree is cut further in the same way, and a tree that
expands dependencies stays as it is. -/
theorem callTree_dependencies_are_cut (compilation : Compilation)
    (textual : compilation.Textual) (options : TreeOptions)
    (root : compilation.Place)
    (callable : (compilation.node root).kind.isCallable = true) :
    ∃ full closed,
      (compilation.callTree { options with includeDeps := true } root).outcome =
        .ok full ∧
      (compilation.callTree { options with includeDeps := false } root).outcome =
        .ok closed ∧
      closed = full.cutBelow options.ignorePrefixes ∧
      full.PrunesTo closed ∧
      ∀ starts, options.ignorePrefixes ⊆ starts →
        (compilation.callTree
          { options with includeDeps := true, ignorePrefixes := starts }
          root).outcome = .ok full ∧
        ∃ other,
          (compilation.callTree
            { options with includeDeps := false, ignorePrefixes := starts }
            root).outcome = .ok other ∧
          other = closed.cutBelow starts ∧
          closed.PrunesTo other := by
  obtain ⟨full, built, -⟩ :=
    exists_callTree textual { options with includeDeps := true } callable
  have closing : ({ options with includeDeps := true } : TreeOptions).ClosesMore
      { options with includeDeps := false } :=
    ⟨rfl, rfl, List.nil_subset _⟩
  have closed := callTree_cutBelow textual closing built
  refine ⟨full, full.cutBelow options.ignorePrefixes, built, closed, rfl,
    full.prunesTo_cutBelow _, ?_⟩
  intro starts included
  refine ⟨?_, _, ?_, rfl, CallNode.prunesTo_cutBelow _ _⟩
  · have stays : ({ options with includeDeps := true } : TreeOptions).ClosesMore
        { options with includeDeps := true, ignorePrefixes := starts } :=
      ⟨rfl, rfl, List.nil_subset _⟩
    have same := callTree_cutBelow textual stays built
    exact same.trans (congrArg Except.ok full.cutBelow_nil)
  · have closingMore :
        ({ options with includeDeps := false } : TreeOptions).ClosesMore
          { options with includeDeps := false, ignorePrefixes := starts } :=
      ⟨rfl, rfl, included⟩
    exact callTree_cutBelow textual closingMore closed

/-- Every path starts with the empty text.  The root stays open nevertheless,
and the function that it mentions is closed. -/
theorem callTree_pingPong_closes_pong :
    (Reading.read (Sample.file pingPongUnits)).outcome = .ok pingPong ∧
      ∃ full closed,
        (pingPong.callTree { ignorePrefixes := [""], includeDeps := true }
          ping).outcome = .ok full ∧
        (pingPong.callTree { ignorePrefixes := [""], includeDeps := false }
          ping).outcome = .ok closed ∧
        closed = full.cutBelow [""] ∧
        (∃ child ∈ full.children,
          child.info.declaration = some (pingPong.callable pong) ∧
            child.children ≠ []) ∧
        ∃ child ∈ closed.children,
          child.info.declaration = some (pingPong.callable pong) ∧
            child.children = [] := by
  obtain ⟨full, closed, fullBuilt, closedBuilt, same, -⟩ :=
    callTree_dependencies_are_cut pingPong textual_pingPong
      { ignorePrefixes := [""] } ping rfl
  refine ⟨read_pingPong, full, closed, fullBuilt, closedBuilt, same, ?_, ?_⟩
  · obtain ⟨child, member, classification, shows⟩ :=
      (opens_of_callTree fullBuilt).exists_child textual_pingPong
        refersTo_ping_pong
    have opens := shows.opens (by decide) rfl
    obtain ⟨last, isLast, -⟩ :=
      opens.exists_child textual_pingPong refersTo_pong_ping
    exact ⟨child, member, shows.declaration, List.ne_nil_of_mem isLast⟩
  · obtain ⟨child, member, classification, shows⟩ :=
      (opens_of_callTree closedBuilt).exists_child textual_pingPong
        refersTo_ping_pong
    refine ⟨child, member, shows.declaration, ?_⟩
    cases shows with
    | recursive | dependency => rfl
    | expanded _ _ decided =>
        have path : (pingPong.callable pong).path.value =
            .str "src/Game.sol" :=
          (value_pathDatum _).trans pathOf_pong
        have under : (pingPong.callable pong).isUnder [""] = true := by
          rw [Callable.isUnder, path]
          simp
        rw [isDependency_eq textual_pingPong] at decided
        exact absurd (under.symm.trans (Except.ok.inj decided)) (by decide)

end Compilation

end ContractAtlas
