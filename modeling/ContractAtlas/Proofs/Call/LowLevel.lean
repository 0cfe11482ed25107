/-
Low-level calls in a call tree.

A tree that shows low-level calls is the tree that does not, with leaves added
to it.  The walk below a definition keeps its lists of targets and of names
apart from the low-level calls that it meets, so the other sites are the same
in both walks.  In a tree with low-level calls, the leaves below a definition
are its low-level calls one by one, and each of them counts as an external
call that may change the state.
-/

import ContractAtlas.Proofs.Call.FirstReference

namespace ContractAtlas

namespace CallNode

def isLowLevel (node : CallNode) : Bool :=
  node.info.callType = .lowLevel

/-- The leaf of a low-level call. -/
def lowLevelCall (kind : LowLevelKind) : CallNode :=
  .mk
    { name := .text kind.name
      callType := .lowLevel
      lowLevel := some kind }
    []

mutual

/-- The tree without the low-level calls below its root. -/
def withoutLowLevel : CallNode → CallNode
  | mk info children => mk info (withoutLowLevelAll children)

def withoutLowLevelAll : List CallNode → List CallNode
  | [] => []
  | node :: rest =>
      if node.isLowLevel then withoutLowLevelAll rest
      else withoutLowLevel node :: withoutLowLevelAll rest

end

theorem withoutLowLevelAll_append (left right : List CallNode) :
    withoutLowLevelAll (left ++ right) =
      withoutLowLevelAll left ++ withoutLowLevelAll right := by
  induction left with
  | nil => rfl
  | cons node rest inductionHypothesis =>
      simp only [List.cons_append, withoutLowLevelAll, inductionHypothesis]
      split
      · rfl
      · rfl

private theorem info_withoutLowLevel (node : CallNode) :
    node.withoutLowLevel.info = node.info := by
  cases node with
  | mk info children => rfl

private theorem children_withoutLowLevel (node : CallNode) :
    node.withoutLowLevel.children = withoutLowLevelAll node.children := by
  cases node with
  | mk info children => rfl

/-- Where low-level calls are leaves, a visit without them meets the other
nodes in the same order. -/
theorem map_info_visit_withoutLowLevelAll {pending : List CallNode}
    (leaves : ∀ node ∈ visit pending, node.isLowLevel = true →
      node.children = []) :
    (visit (withoutLowLevelAll pending)).map info =
      ((visit pending).filter fun node => !node.isLowLevel).map info := by
  fun_induction visit pending with
  | case1 => rw [withoutLowLevelAll, visit, List.filter_nil]
  | case2 node pending inductionHypothesis =>
      obtain ⟨ownLeaf, laterLeaves⟩ := List.forall_mem_cons.1 leaves
      have later := inductionHypothesis laterLeaves
      rw [withoutLowLevelAll_append] at later
      by_cases lowLevel : node.isLowLevel = true
      · rw [ownLeaf lowLevel, withoutLowLevelAll, List.nil_append,
          List.nil_append] at later
        rw [withoutLowLevelAll, if_pos lowLevel, ownLeaf lowLevel,
          List.nil_append, List.filter_cons_of_neg (by simpa using lowLevel)]
        exact later
      · rw [withoutLowLevelAll, if_neg lowLevel, visit,
          children_withoutLowLevel, List.map_cons, info_withoutLowLevel,
          List.filter_cons_of_pos (by simpa using lowLevel), List.map_cons,
          later]

/-- The low-level calls of a tree are below its root and are leaves without a
definition. -/
structure LowLevelLeaves (root : CallNode) : Prop where
  inner : root.isLowLevel = false
  leaves : ∀ node ∈ root.walk, node.isLowLevel = true →
    ∃ kind, node = lowLevelCall kind

variable {root : CallNode}

/-- What a tree counts is what it counts without its low-level calls, and what
it counts among them. -/
theorem LowLevelLeaves.countP_walk (leaves : root.LowLevelLeaves)
    (counted : CallInfo → Bool) :
    root.walk.countP (counted ∘ info) =
      root.withoutLowLevel.walk.countP (counted ∘ info) +
        (root.walk.filter isLowLevel).countP (counted ∘ info) := by
  have kept : withoutLowLevelAll [root] = [root.withoutLowLevel] := by
    simp [withoutLowLevelAll, leaves.inner]
  have childless : ∀ node ∈ root.walk, node.isLowLevel = true →
      node.children = [] := by
    intro node visited lowLevel
    obtain ⟨kind, rfl⟩ := leaves.leaves node visited lowLevel
    rfl
  have shown := map_info_visit_withoutLowLevelAll childless
  rw [kept] at shown
  have others : root.withoutLowLevel.walk.countP (counted ∘ info) =
      (root.walk.filter fun node => !node.isLowLevel).countP
        (counted ∘ info) := by
    rw [← List.countP_map, ← List.countP_map]
    exact congrArg (List.countP counted) shown
  rw [others, Nat.add_comm]
  exact List.countP_eq_countP_filter_add _ _ _

private theorem LowLevelLeaves.countP_walk_of_counted
    (leaves : root.LowLevelLeaves)
    (counted : CallInfo → Bool)
    (counts : ∀ kind, counted (lowLevelCall kind).info = true) :
    root.walk.countP (counted ∘ info) =
      root.withoutLowLevel.walk.countP (counted ∘ info) +
        root.walk.countP isLowLevel := by
  have allCounted : (root.walk.filter isLowLevel).countP (counted ∘ info) =
      (root.walk.filter isLowLevel).length := by
    rw [List.countP_eq_length]
    intro node member
    obtain ⟨visited, lowLevel⟩ := List.mem_filter.1 member
    obtain ⟨kind, rfl⟩ := leaves.leaves node visited lowLevel
    exact counts kind
  rw [leaves.countP_walk counted, allCounted, ← List.countP_eq_length_filter]

private theorem LowLevelLeaves.countP_walk_of_not_counted
    (leaves : root.LowLevelLeaves) (counted : CallInfo → Bool)
    (ignores : ∀ kind, counted (lowLevelCall kind).info = false) :
    root.walk.countP (counted ∘ info) =
      root.withoutLowLevel.walk.countP (counted ∘ info) := by
  rw [leaves.countP_walk counted, Nat.add_eq_left, List.countP_eq_zero]
  intro node member
  obtain ⟨visited, lowLevel⟩ := List.mem_filter.1 member
  obtain ⟨kind, rfl⟩ := leaves.leaves node visited lowLevel
  rw [Function.comp_apply, ignores kind]
  exact Bool.false_ne_true

end CallNode

namespace TreeOptions

def withLowLevel (options : TreeOptions) : TreeOptions :=
  { options with includeLowLevel := true }

def withoutLowLevel (options : TreeOptions) : TreeOptions :=
  { options with includeLowLevel := false }

end TreeOptions

/-- The kind of a site that is a low-level call. -/
def Site.lowLevelKind? {compilation : Compilation} :
    Site compilation → Option LowLevelKind
  | .lowLevel kind => some kind
  | .unresolved _ _ => none
  | .declared _ _ => none
  | .stop _ => none

/-- A reference does not have the class of a low-level call. -/
def Site.WellClassed {compilation : Compilation} : Site compilation → Prop
  | .declared _ classification => classification.callType ≠ .lowLevel
  | .lowLevel _ => True
  | .unresolved _ _ => True
  | .stop _ => True

namespace Compilation

/-- The kinds of the low-level calls among calls. -/
def lowLevelKinds (calls : List Node) : List LowLevelKind :=
  calls.filterMap fun call => (lowLevelKind call).toOption.join

variable {compilation : Compilation} {options : TreeOptions}
  {definition root : compilation.Place}

/-! ### Sites with and without low-level calls -/

/-- At a node that is no low-level call the walk stops, or it goes on behind
sites that are no low-level calls, and what it does depends on no option but
`noStatic`. -/
theorem sitesAmong_cons_of_not_lowLevel (noStatic : Bool)
    (definition : compilation.Place) (targets : List compilation.Place)
    (names : List Json.Key) {node : Node}
    (plain : lowLevelSite node = .ok none) :
    (∃ fault, ∀ options : TreeOptions, options.noStatic = noStatic →
      ∀ rest, compilation.sitesAmong options definition targets names
        (node :: rest) = [.stop fault]) ∨
      ∃ front moreTargets moreNames, (∀ site ∈ front, site.lowLevelKind? = none) ∧
        ∀ options : TreeOptions, options.noStatic = noStatic →
          ∀ rest, compilation.sitesAmong options definition targets names
            (node :: rest) =
              front ++ compilation.sitesAmong options definition moreTargets
                moreNames rest := by
  simp only [sitesAmong, plain]
  cases compilation.referenced? node with
  | none =>
      dsimp only
      by_cases given : (unresolvedName node).isGiven = true
      · simp only [given, if_true]
        cases (unresolvedName node).key? with
        | none => exact Or.inl ⟨_, fun _ _ _ => rfl⟩
        | some key =>
            by_cases met : key ∈ names
            · exact Or.inr ⟨[], targets, names, by simp, by simp [met]⟩
            · refine Or.inr ⟨[.unresolved (unresolvedName node) node.src],
                targets, key :: names, ?_, by simp [met]⟩
              simp [Site.lowLevelKind?]
      · exact Or.inr ⟨[], targets, names, by simp, by simp [given]⟩
  | some target =>
      dsimp only
      by_cases passed : (target == definition ||
          !(compilation.node target).kind.isCallable ||
          targets.contains target) = true
      · refine Or.inr ⟨[], targets, names, by simp, ?_⟩
        intro options _ rest
        rw [if_pos passed, List.nil_append]
      · cases classified : compilation.classifyReference noStatic node with
        | error fault =>
            refine Or.inl ⟨fault, ?_⟩
            rintro options rfl rest
            rw [if_neg passed, classified]
        | ok classification =>
            refine Or.inr ⟨[.declared target classification],
              target :: targets, names, by simp [Site.lowLevelKind?], ?_⟩
            rintro options rfl rest
            rw [if_neg passed, classified]
            rfl

private theorem filter_isNone_sitesAmong (targets : List compilation.Place)
    (names : List Json.Key) (nodes : List Node) :
    (compilation.sitesAmong options.withLowLevel definition targets names
        nodes).filter (fun site => site.lowLevelKind?.isNone) =
      compilation.sitesAmong options.withoutLowLevel definition targets names
        nodes := by
  induction nodes generalizing targets names with
  | nil => rfl
  | cons node rest inductionHypothesis =>
      cases found : lowLevelSite node with
      | error fault =>
          rw [sitesAmong, sitesAmong, found]
          rfl
      | ok kind =>
          cases kind with
          | some kind =>
              rw [sitesAmong, sitesAmong, found]
              exact inductionHypothesis targets names
          | none =>
              rcases sitesAmong_cons_of_not_lowLevel options.noStatic definition
                  targets names found with
                ⟨fault, stops⟩ | ⟨front, moreTargets, moreNames, plain, walks⟩
              · rw [stops options.withLowLevel rfl,
                  stops options.withoutLowLevel rfl]
                rfl
              · have allKept : front.filter (fun site => site.lowLevelKind?.isNone) =
                    front := by
                  rw [List.filter_eq_self]
                  intro site member
                  rw [plain site member]
                  rfl
                rw [walks options.withLowLevel rfl,
                  walks options.withoutLowLevel rfl, List.filter_append, allKept,
                  inductionHypothesis]

theorem filter_isNone_sites (definition : compilation.Place) :
    (compilation.sites options.withLowLevel definition).filter
        (fun site => site.lowLevelKind?.isNone) =
      compilation.sites options.withoutLowLevel definition :=
  filter_isNone_sitesAmong [] [] _

theorem lowLevelKinds_cons {node : Node} {kind : Option LowLevelKind}
    (found : lowLevelSite node = .ok kind) (rest : List Node) :
    lowLevelKinds ((node :: rest).filter fun call => call.kind = .functionCall) =
      kind.toList ++
        lowLevelKinds (rest.filter fun call => call.kind = .functionCall) := by
  unfold lowLevelSite at found
  by_cases isCall : node.kind = .functionCall
  · rw [if_pos isCall] at found
    have ofNode : (lowLevelKind node).toOption.join = kind := by
      rw [found]
      rfl
    rw [List.filter_cons_of_pos (by simpa using isCall)]
    cases kind with
    | none => exact List.filterMap_cons_none ofNode
    | some kind => exact List.filterMap_cons_some ofNode
  · rw [if_neg isCall] at found
    rw [List.filter_cons_of_neg (by simpa using isCall), ← Except.ok.inj found]
    rfl

theorem filterMap_lowLevelKind?_sitesAmong {targets : List compilation.Place}
    {names : List Json.Key} {nodes : List Node}
    (noStop : ∀ fault, .stop fault ∉
      compilation.sitesAmong options.withLowLevel definition targets names
        nodes) :
    (compilation.sitesAmong options.withLowLevel definition targets names
        nodes).filterMap Site.lowLevelKind? =
      lowLevelKinds (nodes.filter fun call => call.kind = .functionCall) := by
  induction nodes generalizing targets names with
  | nil => rfl
  | cons node rest inductionHypothesis =>
      cases found : lowLevelSite node with
      | error fault =>
          rw [sitesAmong, found] at noStop
          exact absurd (List.mem_singleton_self _) (noStop fault)
      | ok kind =>
          rw [lowLevelKinds_cons found]
          cases kind with
          | some kind =>
              have walked : compilation.sitesAmong options.withLowLevel definition
                  targets names (node :: rest) =
                    .lowLevel kind :: compilation.sitesAmong options.withLowLevel
                      definition targets names rest := by
                rw [sitesAmong, found]
                rfl
              rw [walked] at noStop ⊢
              have later := inductionHypothesis fun fault stopped =>
                noStop fault (List.mem_cons_of_mem _ stopped)
              exact congrArg (kind :: ·) later
          | none =>
              rcases sitesAmong_cons_of_not_lowLevel options.noStatic definition
                  targets names found with
                ⟨fault, stops⟩ | ⟨front, moreTargets, moreNames, plain, walks⟩
              · rw [stops options.withLowLevel rfl] at noStop
                exact absurd (List.mem_singleton_self _) (noStop fault)
              · rw [walks options.withLowLevel rfl] at noStop ⊢
                rw [List.filterMap_append, List.filterMap_eq_nil_iff.2 plain,
                  List.nil_append]
                apply inductionHypothesis
                intro fault stopped
                exact noStop fault (List.mem_append_right front stopped)

private theorem callType_ne_of_classifyReference {noStatic : Bool} {node : Node}
    {classification : Classification} (plain : ¬ IsLowLevelCall node)
    (classified :
      compilation.classifyReference noStatic node = .ok classification) :
    classification.callType ≠ .lowLevel := by
  unfold classifyReference at classified
  split at classified
  · next isCall =>
      unfold classify at classified
      split at classified
      · cases classified
      · next kind found => exact absurd ⟨isCall, kind, found⟩ plain
      · split at classified
        · cases classified
        · rw [← Except.ok.inj classified]
          exact CallType.noConfusion
        · rw [← Except.ok.inj classified]
          exact CallType.noConfusion
  · rw [← Except.ok.inj classified]
    exact CallType.noConfusion

theorem callType_ne_of_declared_mem {targets : List compilation.Place}
    {names : List Json.Key} {nodes : List Node} {target : compilation.Place}
    {classification : Classification}
    (met : .declared target classification ∈
      compilation.sitesAmong options definition targets names nodes) :
    classification.callType ≠ .lowLevel := by
  obtain ⟨-, node, -, points, classified⟩ := exists_pointsTo_of_declared_mem met
  exact callType_ne_of_classifyReference points.1 classified

theorem wellClassed_of_mem_sites {site : Site compilation}
    (met : site ∈ compilation.sites options definition) : site.WellClassed := by
  cases site with
  | declared target classification => exact callType_ne_of_declared_mem met
  | lowLevel | unresolved | stop => trivial

/-! ### Trees with and without low-level calls -/

private theorem not_isLowLevel_targetNode {target : compilation.Place}
    {classification : Classification}
    (plain : classification.callType ≠ .lowLevel) (recursive : Bool)
    (children : List CallNode) :
    ¬ (compilation.targetNode target classification recursive
      children).isLowLevel = true :=
  fun lowLevel => plain (of_decide_eq_true lowLevel)

theorem withoutLowLevelAll_targetNode_cons {target : compilation.Place}
    {classification : Classification}
    (plain : classification.callType ≠ .lowLevel) (recursive : Bool)
    (children others : List CallNode) :
    CallNode.withoutLowLevelAll
        (compilation.targetNode target classification recursive children ::
          others) =
      compilation.targetNode target classification recursive
          (CallNode.withoutLowLevelAll children) ::
        CallNode.withoutLowLevelAll others := by
  rw [CallNode.withoutLowLevelAll,
    if_neg (not_isLowLevel_targetNode plain recursive children)]
  rfl

/-- Expanding sites without the low-level calls gives the same nodes but for
them, with the same events on the way and the same faults. -/
theorem expand_withoutLowLevel (options : TreeOptions)
    (path : List compilation.Place) (sites : List (Site compilation))
    (classed : ∀ site ∈ sites, site.WellClassed) :
    compilation.expand options.withoutLowLevel path
        (sites.filter fun site => site.lowLevelKind?.isNone) =
      CallNode.withoutLowLevelAll <$>
        compilation.expand options.withLowLevel path sites := by
  fun_induction expand compilation options.withLowLevel path sites with
  | case1 path =>
      rw [List.filter_nil, expand]
      rfl
  | case2 path fault rest =>
      rw [List.filter_cons_of_pos rfl, expand]
      rfl
  | case3 path kind rest laterHypothesis =>
      have later := laterHypothesis (List.forall_mem_cons.1 classed).2
      rw [List.filter_cons_of_neg (by simp [Site.lowLevelKind?]), later, map_bind,
        ← bind_pure_comp]
      rfl
  | case4 path name src rest laterHypothesis =>
      have later := laterHypothesis (List.forall_mem_cons.1 classed).2
      rw [List.filter_cons_of_pos rfl, expand, later, map_bind]
      simp only [map_bind, bind_map_left]
      rfl
  | case5 path target classification rest onPath laterHypothesis =>
      obtain ⟨own, others⟩ := List.forall_mem_cons.1 classed
      rw [List.filter_cons_of_pos rfl, expand, dif_pos onPath,
        laterHypothesis others]
      simp only [map_bind, bind_map_left, map_pure,
        withoutLowLevelAll_targetNode_cons own]
      rfl
  | case6 path target classification rest fresh laterHypothesis
      belowHypothesis =>
      obtain ⟨own, others⟩ := List.forall_mem_cons.1 classed
      have below := belowHypothesis fun _ met => wellClassed_of_mem_sites met
      rw [filter_isNone_sites] at below
      rw [List.filter_cons_of_pos rfl, expand, dif_neg fresh, below,
        laterHypothesis others, map_bind]
      -- Whether the target is a dependency is decided alike in both trees.
      refine bind_congr fun dependency => ?_
      cases dependency with
      | true =>
          simp only [if_true, map_bind, bind_map_left, map_pure,
            withoutLowLevelAll_targetNode_cons own]
          rfl
      | false =>
          simp only [Bool.false_eq_true, if_false, map_bind, bind_map_left,
            map_pure, withoutLowLevelAll_targetNode_cons own]

private theorem callTree_withoutLowLevel (options : TreeOptions)
    (root : compilation.Place) :
    compilation.callTree options.withoutLowLevel root =
      CallNode.withoutLowLevel <$>
        compilation.callTree options.withLowLevel root := by
  unfold callTree
  by_cases isCallable : (compilation.node root).kind.isCallable = true
  · have below := expand_withoutLowLevel options [root]
      (compilation.sites options.withLowLevel root)
      fun _ met => wellClassed_of_mem_sites met
    rw [filter_isNone_sites] at below
    simp only [isCallable, if_true, below, map_bind, bind_map_left, map_pure]
    rfl
  · rw [if_neg isCallable, if_neg isCallable]
    rfl

/-! ### The leaves below a definition -/

theorem filter_isLowLevel_of_forall₂ {path : List compilation.Place}
    {sites : List (Site compilation)} {nodes : List CallNode}
    (shown : List.Forall₂ (compilation.Shows options path) sites nodes)
    (classed : ∀ site ∈ sites, site.WellClassed) :
    nodes.filter CallNode.isLowLevel =
      (sites.filterMap Site.lowLevelKind?).map CallNode.lowLevelCall := by
  induction shown with
  | nil => rfl
  | cons shows later inductionHypothesis =>
      obtain ⟨own, others⟩ := List.forall_mem_cons.1 classed
      cases shows with
      | lowLevel kind =>
          rw [List.filter_cons_of_pos rfl, inductionHypothesis others]
          rfl
      | unresolved name src =>
          rw [List.filter_cons_of_neg Bool.false_ne_true,
            inductionHypothesis others]
          rfl
      | recursive | dependency | expanded =>
          rw [List.filter_cons_of_neg (not_isLowLevel_targetNode own _ _),
            inductionHypothesis others]
          rfl

private theorem Opens.filter_isLowLevel {path : List compilation.Place}
    {node : CallNode}
    (opens : compilation.Opens options.withLowLevel definition path node) :
    node.children.filter CallNode.isLowLevel =
      (lowLevelKinds (compilation.callsBelow definition)).map
        CallNode.lowLevelCall := by
  have noStop := stop_notMem_of_forall₂ opens.children
  rw [filter_isLowLevel_of_forall₂ opens.children
    fun _ met => wellClassed_of_mem_sites met]
  exact congrArg (List.map CallNode.lowLevelCall)
    (filterMap_lowLevelKind?_sitesAmong noStop)

private theorem lowLevelLeaves_of_callTree (textual : compilation.Textual)
    {tree : CallNode}
    (built : (compilation.callTree options root).outcome = .ok tree) :
    tree.LowLevelLeaves := by
  have inner : tree.isLowLevel = false := by
    rw [CallNode.isLowLevel, callType_of_callTree built]
    rfl
  refine ⟨inner, ?_⟩
  intro node visited lowLevel
  rcases exists_site_of_mem_walk textual built visited with
    rfl | ⟨definition, path, site, isSite, shows⟩
  · rw [inner] at lowLevel
    cases lowLevel
  · cases shows with
    | lowLevel kind => exact ⟨kind, rfl⟩
    | unresolved => cases lowLevel
    | recursive | dependency | expanded =>
        have classed := wellClassed_of_mem_sites isSite
        exact absurd lowLevel (not_isLowLevel_targetNode classed _ _)

/-- The call tree with low-level calls is the one without them and leaves for
the calls.  Taking all low-level calls out of the one gives the other.  Each of
them is a leaf that has a kind and no definition, and below a node that is
expanded at a definition they are the low-level calls of the definition, one by
one and in order.  Each adds one to the number of nodes, of external calls and
of external calls that may change the state, and nothing to the number of
static ones. -/
theorem callTree_low_level_calls_are_leaves (compilation : Compilation)
    (textual : compilation.Textual) (options : TreeOptions)
    (root : compilation.Place)
    (callable : (compilation.node root).kind.isCallable = true) :
    ∃ plain full,
      (compilation.callTree { options with includeLowLevel := false }
        root).outcome = .ok plain ∧
      (compilation.callTree { options with includeLowLevel := true }
        root).outcome = .ok full ∧
      full.withoutLowLevel = plain ∧
      (∀ node ∈ full.walk, node.isLowLevel = true →
        ∃ kind, node = CallNode.lowLevelCall kind) ∧
      (∀ ancestors node definition, full.PathTo ancestors node →
        compilation.OpenAt node definition →
        (ancestors = [] ∨
          compilation.isDependency options definition = .ok false) →
        node.children.filter CallNode.isLowLevel =
          (lowLevelKinds (compilation.callsBelow definition)).map
            CallNode.lowLevelCall) ∧
      full.countNodes =
        plain.countNodes + full.walk.countP CallNode.isLowLevel ∧
      full.countExternal =
        plain.countExternal + full.walk.countP CallNode.isLowLevel ∧
      full.countMutating =
        plain.countMutating + full.walk.countP CallNode.isLowLevel ∧
      full.countStatic = plain.countStatic := by
  obtain ⟨full, built, opens⟩ :=
    exists_callTree textual options.withLowLevel callable
  have leaves := lowLevelLeaves_of_callTree textual built
  refine ⟨full.withoutLowLevel, full, ?_, built, rfl, leaves.leaves, ?_, ?_, ?_,
    ?_, ?_⟩
  · have same := callTree_withoutLowLevel options root
    have outcome := congrArg Journal.outcome same
    rw [Journal.outcome_map, built] at outcome
    exact outcome
  · intro ancestors node definition reached openAt expanded
    obtain ⟨path, nodeOpens⟩ :=
      exists_opens_of_openAt opens reached openAt expanded
    exact nodeOpens.filter_isLowLevel
  · have counted := leaves.countP_walk_of_counted (fun _ => true) fun _ => rfl
    simpa only [CallNode.countNodes, Function.comp_def, List.countP_true]
      using counted
  · exact leaves.countP_walk_of_counted
      (fun info => (CallNode.mk info []).isExternal) fun _ => rfl
  · exact leaves.countP_walk_of_counted
      (fun info => (CallNode.mk info []).isExternal &&
        !(CallNode.mk info []).isStatic) fun _ => rfl
  · exact leaves.countP_walk_of_not_counted
      (fun info => (CallNode.mk info []).isExternal &&
        (CallNode.mk info []).isStatic) fun _ => rfl

/-! ### A transfer beside a call -/

/-- `owner.transfer()` -/
def callTransfer (id : Nat) : Sample :=
  .call id
    (.member (id + 1) "transfer" none
      (.identifier (id + 2) "owner" "address payable" none))

theorem textual_callTransfer (id : Nat) : (callTransfer id).Textual :=
  Sample.textual_call _
    (Sample.textual_member _ _ _ (Sample.textual_identifier _ _ _ _))

theorem lowLevelKind_callTransfer (id : Nat) (parent : Option Nat)
    (field : String) (listed : Bool) :
    lowLevelKind ((callTransfer id).node parent field listed) =
      .ok (some .transfer) := by
  have called : ((callTransfer id).node parent field listed).callee? = some _ :=
    Node.callee?_of_memberAccess rfl rfl
  rw [lowLevelKind, called]
  rfl

/-- `function forward() { owner.transfer(); vault.deposit(); }` -/
def payingBody : List Sample :=
  [callTransfer 3, callDeposit 6]

abbrev paying : Compilation :=
  forwarding "payable" payingBody

private theorem read_paying :
    (Reading.read (Sample.file
      (forwardingUnits "payable" payingBody))).outcome = .ok paying :=
  (rfl)

private theorem textual_paying : paying.Textual :=
  textual_forwarding _ (List.forall_mem_cons.2 ⟨textual_callTransfer 3,
    List.forall_mem_singleton.2 (textual_callDeposit 6)⟩)

private theorem lowLevelKinds_paying :
    lowLevelKinds (paying.callsBelow (forward _ _)) = [.transfer] := by
  have calls : paying.callsBelow (forward _ _) =
      [inBody (callTransfer 3), inBody (callDeposit 6)] := by
    rw [callsBelow, Node.descendantsOfKind, descendants_forward]
    rfl
  have transfers : lowLevelKind (inBody (callTransfer 3)) =
      .ok (some .transfer) :=
    lowLevelKind_callTransfer 3 _ _ _
  rw [calls, lowLevelKinds, List.filterMap_cons, transfers,
    List.filterMap_cons, lowLevelKind_callDeposit]
  rfl

theorem callTree_paying_shows_transfer :
    (Reading.read (Sample.file
        (forwardingUnits "payable" payingBody))).outcome = .ok paying ∧
      ∃ plain full,
        (paying.callTree
          { ignorePrefixes := ["lib/"], includeLowLevel := false }
          (forward _ _)).outcome = .ok plain ∧
        (paying.callTree
          { ignorePrefixes := ["lib/"], includeLowLevel := true }
          (forward _ _)).outcome = .ok full ∧
        full.withoutLowLevel = plain ∧
        full.children.filter CallNode.isLowLevel =
          [CallNode.lowLevelCall .transfer] := by
  obtain ⟨plain, full, plainBuilt, fullBuilt, same, -, leaves, -⟩ :=
    callTree_low_level_calls_are_leaves paying textual_paying
      { ignorePrefixes := ["lib/"] } (forward _ _) rfl
  have openAt := (opens_of_callTree fullBuilt).openAt
  have shown := leaves [] full (forward _ _) .root openAt (Or.inl rfl)
  rw [lowLevelKinds_paying] at shown
  exact ⟨read_paying, plain, full, plainBuilt, fullBuilt, same, shown⟩

end Compilation

end ContractAtlas
