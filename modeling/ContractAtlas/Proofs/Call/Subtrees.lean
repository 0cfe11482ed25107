/-
Subtrees of a call tree.

A node that is expanded inside a tree has below it what its definition has
below it in a tree of its own, except for the definitions above the node:
their nodes are recursive leaves.  The tree of its own exists unless the root
comes up in it and has a source path that is no text.  The root of a tree is
expanded without a look at its path, so such a root does not stop its own
tree.
-/

import Mathlib.Data.List.Basic
import ContractAtlas.Proofs.Call.Dependencies

namespace ContractAtlas

namespace CallNode

/-- The definition behind the node is at one of the positions. -/
def isAt (positions : List Nat) (node : CallNode) : Bool :=
  node.position?.any positions.contains

mutual

/-- A tree in which the first nodes at the given positions, on the way down,
are recursive leaves. -/
def close (positions : List Nat) : CallNode → CallNode
  | mk info children =>
      if (mk info children).isAt positions then
        mk { info with recursive := true } []
      else mk info (closeAll positions children)

def closeAll (positions : List Nat) : List CallNode → List CallNode
  | [] => []
  | node :: rest => close positions node :: closeAll positions rest

end

private theorem close_of_undeclared (positions : List Nat) {info : CallInfo}
    (undeclared : info.declaration = none) :
    (mk info []).close positions = mk info [] := by
  have nowhere : ¬ (mk info []).isAt positions = true := by
    rw [isAt, position?, CallNode.info, undeclared]
    exact Bool.false_ne_true
  rw [close, if_neg nowhere, closeAll]

end CallNode

namespace Compilation

variable (compilation : Compilation) (options : TreeOptions)

/-- The target ends a chain of references that goes through definitions which
are expanded. -/
inductive Reaches (start : compilation.Place) : compilation.Place → Prop
  | direct {target : compilation.Place}
      (refers : compilation.RefersTo start target) : Reaches start target
  | further {definition target : compilation.Place}
      (reaches : Reaches start definition)
      (decided : compilation.isDependency options definition = .ok false)
      (refers : compilation.RefersTo definition target) : Reaches start target

/-- Definitions are closed by the start of their source path, and the path of
this one is no text. -/
structure HasUnreadablePath (place : compilation.Place) : Prop where
  tested : options.closedStarts ≠ []
  notText : ∀ text, compilation.pathOf (compilation.node place) ≠ .str text

variable {compilation options} {root start : compilation.Place}

/-! ### What is closed below a longer path -/

private theorem val_mem_map_iff {target : compilation.Place}
    {places : List compilation.Place} :
    target.val ∈ places.map Fin.val ↔ target ∈ places :=
  List.mem_map_of_injective fun _ _ => Fin.ext

private theorem close_targetNode (positions : List Nat)
    (target : compilation.Place)
    (classification : Classification) (recursive : Bool)
    (children : List CallNode) :
    (compilation.targetNode target classification recursive children).close
        positions =
      if target.val ∈ positions then
        compilation.targetNode target classification true []
      else
        compilation.targetNode target classification recursive
          (CallNode.closeAll positions children) := by
  have isAt : (compilation.targetNode target classification recursive
      children).isAt positions = positions.contains target.val := rfl
  rw [targetNode] at isAt
  rw [targetNode, CallNode.close, isAt]
  simp only [List.contains_iff_mem]
  rfl

/-- Below a path that goes on upwards, the same sites are shown by the nodes
after those on the upper part are closed. -/
theorem forall₂_shows_closeAll (above : List compilation.Place)
    {below : List compilation.Place} {sites : List (Site compilation)}
    {nodes : List CallNode}
    (shown : List.Forall₂ (compilation.Shows options below) sites nodes) :
    List.Forall₂ (compilation.Shows options (below ++ above)) sites
      (CallNode.closeAll (above.map Fin.val) nodes) := by
  induction left : compilation.unvisited below using Nat.strongRecOn
    generalizing below sites nodes with
  | ind _ pathHypothesis =>
      subst left
      -- The outer hypothesis is for the children of a node that stays open.
      induction shown with
      | nil => exact .nil
      | cons shows later laterHypothesis =>
          refine .cons ?_ laterHypothesis
          cases shows with
          | lowLevel kind =>
              rw [CallNode.close_of_undeclared _ rfl]
              exact .lowLevel kind
          | unresolved name src =>
              rw [CallNode.close_of_undeclared _ rfl]
              exact .unresolved name src
          | recursive classification onPath =>
              rw [close_targetNode, CallNode.closeAll, ite_self]
              exact .recursive classification (List.mem_append_left above onPath)
          | @dependency target classification fresh decided =>
              rw [close_targetNode, CallNode.closeAll]
              split
              · next isAbove =>
                  exact .recursive classification
                    (List.mem_append_right below (val_mem_map_iff.1 isAbove))
              · next notAbove =>
                  have apart := mt val_mem_map_iff.2 notAbove
                  exact .dependency classification
                    (List.not_mem_append fresh apart) decided
          | @expanded target classification children fresh decided opened =>
              rw [close_targetNode]
              split
              · next isAbove =>
                  exact .recursive classification
                    (List.mem_append_right below (val_mem_map_iff.1 isAbove))
              · next notAbove =>
                  have inner := pathHypothesis _
                    (compilation.unvisited_cons_lt fresh)
                    (expand_eq_ok_iff.1 opened) rfl
                  have apart := mt val_mem_map_iff.2 notAbove
                  exact .expanded classification
                    (List.not_mem_append fresh apart) decided
                    (expand_eq_ok_iff.2 inner)

/-- Nothing is closed at positions that are not reached. -/
theorem closeAll_eq_self {positions : List Nat}
    (reached : compilation.Place → Prop)
    (closed : ∀ definition target, reached definition →
      compilation.isDependency options definition = .ok false →
      compilation.RefersTo definition target → reached target)
    (apart : ∀ target, reached target → target.val ∉ positions)
    {path : List compilation.Place} {sites : List (Site compilation)}
    {nodes : List CallNode}
    (starts : ∀ target classification,
      .declared target classification ∈ sites → reached target)
    (shown : List.Forall₂ (compilation.Shows options path) sites nodes) :
    CallNode.closeAll positions nodes = nodes := by
  induction left : compilation.unvisited path using Nat.strongRecOn
    generalizing path sites nodes with
  | ind _ pathHypothesis =>
      subst left
      induction shown with
      | nil => rfl
      | @cons site node sites nodes shows later laterHypothesis =>
          have laterSame := laterHypothesis fun target classification met =>
            starts target classification (List.mem_cons_of_mem _ met)
          have isApart : ∀ target classification,
              site = .declared target classification →
              target.val ∉ positions := by
            intro target classification same
            exact apart target
              (starts target classification (same ▸ List.mem_cons_self))
          rw [CallNode.closeAll, laterSame]
          congr 1
          cases shows with
          | lowLevel kind => exact CallNode.close_of_undeclared _ rfl
          | unresolved name src => exact CallNode.close_of_undeclared _ rfl
          | recursive classification onPath =>
              rw [close_targetNode, if_neg (isApart _ classification rfl)]
              rfl
          | dependency classification fresh decided =>
              rw [close_targetNode, if_neg (isApart _ classification rfl)]
              rfl
          | @expanded target classification children fresh decided opened =>
              have isReached := starts target classification List.mem_cons_self
              have below := pathHypothesis _
                (compilation.unvisited_cons_lt fresh)
                (fun other _ met => closed target other isReached decided
                  (refersTo_of_declared_mem met))
                (expand_eq_ok_iff.1 opened) rfl
              rw [close_targetNode, if_neg (isApart _ classification rfl), below]

/-! ### What a subtree reaches -/

private theorem Trail.root_mem {path : List compilation.Place}
    (trail : compilation.Trail options root path) : root ∈ path := by
  induction trail with
  | root => exact List.mem_singleton_self root
  | step walked refers fresh decided inductionHypothesis =>
      exact List.mem_cons_of_mem _ inductionHypothesis

private theorem Trail.root_mem_above {path : List compilation.Place}
    (trail : compilation.Trail options root (start :: path))
    (below : path ≠ []) : root ∈ path := by
  cases trail with
  | root => exact absurd rfl below
  | step walked => exact walked.root_mem

/-- Where the references come back to the trail, the trail is cut back. -/
theorem Trail.exists_of_reaches {path : List compilation.Place}
    {target : compilation.Place}
    (trail : compilation.Trail options root (start :: path))
    (reaches : compilation.Reaches options start target) :
    ∃ last rest, compilation.Trail options root (last :: rest) ∧
      compilation.RefersTo last target := by
  induction reaches with
  | direct refers => exact ⟨start, path, trail, refers⟩
  | @further definition target reaches decided refers inductionHypothesis =>
      obtain ⟨last, rest, lastTrail, lastRefers⟩ := inductionHypothesis
      by_cases met : definition ∈ last :: rest
      · obtain ⟨others, shorter⟩ := lastTrail.exists_of_mem met
        exact ⟨definition, others, shorter, refers⟩
      · exact ⟨definition, last :: rest,
          .step lastTrail lastRefers met decided, refers⟩

/-- What a tree reaches from one of its expanded nodes was tested when the
tree was built, except for the root, and it was walked if it was opened. -/
theorem tested_of_reaches {tree : CallNode}
    (opens : compilation.Opens options root [] tree)
    {path : List compilation.Place} {target : compilation.Place}
    (trail : compilation.Trail options root (start :: path))
    (reaches : compilation.Reaches options start target) :
    (target = root ∨
        ∃ dependency,
          compilation.isDependency options target = .ok dependency) ∧
      (compilation.isDependency options target = .ok false →
        ∀ fault, .stop fault ∉ compilation.sites options target) := by
  obtain ⟨last, rest, lastTrail, refers⟩ := trail.exists_of_reaches reaches
  by_cases met : target ∈ last :: rest
  · obtain ⟨others, shorter⟩ := lastTrail.exists_of_mem met
    obtain ⟨_, node, -, nodeOpens⟩ := shorter.exists_pathTo opens
    refine ⟨?_, fun _ => stop_notMem_of_forall₂ nodeOpens.children⟩
    cases shorter with
    | root => exact Or.inl rfl
    | step _ _ _ decided => exact Or.inr ⟨false, decided⟩
  · obtain ⟨_, node, -, nodeOpens⟩ := lastTrail.exists_pathTo opens
    obtain ⟨classification, isSite⟩ :=
      refers.exists_site (stop_notMem_of_forall₂ nodeOpens.children)
    obtain ⟨child, -, shows⟩ := exists_right_of_forall₂ nodeOpens.children isSite
    cases shows with
    | recursive _ onPath => exact absurd onPath met
    | dependency _ _ decided =>
        refine ⟨Or.inr ⟨true, decided⟩, fun isOpened => ?_⟩
        rw [decided] at isOpened
        cases isOpened
    | expanded _ _ decided opened =>
        exact ⟨Or.inr ⟨false, decided⟩, fun _ =>
          stop_notMem_of_forall₂ (expand_eq_ok_iff.1 opened)⟩

/-! ### The tree of a definition on its own -/

private theorem isDependency_eq_error_iff {place : compilation.Place}
    {fault : Fault} :
    compilation.isDependency options place = .error fault ↔
      compilation.HasUnreadablePath options place ∧
        fault = .noOperation
          (compilation.pathOf (compilation.node place)).shape "startswith" := by
  unfold isDependency
  split
  · next included =>
      constructor
      · intro failed
        cases failed
      · rintro ⟨unreadable, -⟩
        exact absurd (if_pos included) unreadable.tested
  · next excluded =>
      have starts : options.closedStarts = options.ignorePrefixes :=
        if_neg excluded
      unfold hasIgnoredPath
      split
      · next text spelled =>
          constructor
          · intro failed
            cases failed
          · rintro ⟨unreadable, -⟩
            exact absurd spelled (unreadable.notText text)
      · next notText =>
          split
          · next untested =>
              constructor
              · intro failed
                cases failed
              · rintro ⟨unreadable, -⟩
                rw [List.isEmpty_iff, ← starts] at untested
                exact absurd untested unreadable.tested
          · next tested =>
              rw [List.isEmpty_iff, ← starts] at tested
              constructor
              · intro failed
                exact ⟨⟨tested, notText⟩, (Except.error.inj failed).symm⟩
              · rintro ⟨-, rfl⟩
                rfl

/-- A definition that is expanded inside a tree has a tree of its own, or the
root is reached from it and cannot be tested. -/
theorem callTree_cases_of_trail {tree : CallNode}
    (built : (compilation.callTree options root).outcome = .ok tree)
    {path : List compilation.Place} {node : CallNode}
    (trail : compilation.Trail options root (start :: path))
    (nodeOpens : compilation.Opens options start path node) :
    (∃ standalone,
        (compilation.callTree options start).outcome = .ok standalone) ∨
      ∃ fault,
        (compilation.callTree options start).outcome = .error fault ∧
        compilation.Reaches options start root ∧
        compilation.isDependency options root = .error fault := by
  have callable : (compilation.node start).kind.isCallable = true := by
    cases trail with
    | root => exact (callTree_eq_ok_iff.1 built).1
    | step _ refers _ _ => exact refers.callable
  cases outcome : (compilation.callTree options start).outcome with
  | ok standalone => exact Or.inl ⟨standalone, rfl⟩
  | error fault =>
      refine Or.inr ⟨fault, rfl, ?_⟩
      rw [callTree, if_pos callable] at outcome
      have failed := Journal.outcome_eq_error_of_bind_pure outcome
      rcases exists_source_of_fault (compilation.Reaches options start)
          (fun _ _ => .further)
          (fun _ _ met => .direct (refersTo_of_declared_mem met)) failed with
        stopped | ⟨definition, reaches, source⟩
      · exact absurd stopped (stop_notMem_of_forall₂ nodeOpens.children fault)
      · obtain ⟨tested, walked⟩ :=
          tested_of_reaches (opens_of_callTree built) trail reaches
        rcases source with untested | ⟨decided, stopped⟩
        · rcases tested with rfl | ⟨dependency, decided⟩
          · exact ⟨reaches, untested⟩
          · rw [decided] at untested
            cases untested
        · exact absurd stopped (walked decided fault)

/-- A tree does not exist if it reaches a definition that cannot be tested and
is not its root. -/
theorem callTree_ne_ok_of_reaches {target : compilation.Place}
    {fault : Fault} (other : target ≠ start)
    (reaches : compilation.Reaches options start target)
    (untested : compilation.isDependency options target = .error fault)
    (tree : CallNode) :
    (compilation.callTree options start).outcome ≠ .ok tree := by
  intro built
  obtain ⟨tested, -⟩ :=
    tested_of_reaches (opens_of_callTree built) .root reaches
  obtain ⟨dependency, decided⟩ := tested.resolve_left other
  rw [decided] at untested
  cases untested

private theorem children_eq_closeAll {path : List compilation.Place}
    {node standalone : CallNode}
    (nodeOpens : compilation.Opens options start path node)
    (standaloneOpens : compilation.Opens options start [] standalone) :
    node.children =
      CallNode.closeAll (path.map Fin.val) standalone.children := by
  have inContext := expand_eq_ok_iff.2 nodeOpens.children
  have closed := expand_eq_ok_iff.2
    (forall₂_shows_closeAll path standaloneOpens.children)
  exact Except.ok.inj (inContext.symm.trans closed)

/-! ### Nodes that are expanded inside a tree -/

section Expanded

variable {tree node : CallNode} {path : List compilation.Place}
  (built : (compilation.callTree options root).outcome = .ok tree)
  (trail : compilation.Trail options root (start :: path))
  (nodeOpens : compilation.Opens options start path node)

include built trail nodeOpens

private theorem callTree_eq_error_of_unreadable (below : path ≠ [])
    (reaches : compilation.Reaches options start root)
    (unreadable : compilation.HasUnreadablePath options root) :
    (compilation.callTree options start).outcome =
      .error (.noOperation
        (compilation.pathOf (compilation.node root)).shape "startswith") := by
  have other : root ≠ start := by
    rintro rfl
    exact (List.nodup_cons.1 trail.nodup).1 (trail.root_mem_above below)
  have untested := isDependency_eq_error_iff.2 ⟨unreadable, rfl⟩
  rcases callTree_cases_of_trail built trail nodeOpens with
    ⟨standalone, alone⟩ | ⟨fault, failed, -, sameFault⟩
  · exact absurd alone
      (callTree_ne_ok_of_reaches other reaches untested standalone)
  · rw [failed, (isDependency_eq_error_iff.1 sameFault).2]

private theorem exists_callTree_closing_above
    (readable : path ≠ [] → compilation.Reaches options start root →
      ¬ compilation.HasUnreadablePath options root) :
    ∃ standalone,
      (compilation.callTree options start).outcome = .ok standalone ∧
      node.children =
        CallNode.closeAll (path.map Fin.val) standalone.children := by
  rcases callTree_cases_of_trail built trail nodeOpens with
    ⟨standalone, alone⟩ | ⟨fault, failed, reaches, untested⟩
  · exact ⟨standalone, alone,
      children_eq_closeAll nodeOpens (opens_of_callTree alone)⟩
  · cases trail with
    | root =>
        rw [built] at failed
        cases failed
    | step =>
        exact absurd (isDependency_eq_error_iff.1 untested).1
          (readable (List.cons_ne_nil _ _) reaches)

private theorem exists_callTree_with_same_children
    (apart : ∀ target, compilation.Reaches options start target →
      target ∉ path) :
    ∃ standalone,
      (compilation.callTree options start).outcome = .ok standalone ∧
      node.children = standalone.children := by
  have readable : path ≠ [] → compilation.Reaches options start root →
      ¬ compilation.HasUnreadablePath options root := by
    intro below reaches
    exact absurd (trail.root_mem_above below) (apart root reaches)
  obtain ⟨standalone, alone, same⟩ :=
    exists_callTree_closing_above built trail nodeOpens readable
  have unchanged := closeAll_eq_self (compilation.Reaches options start)
    (fun _ _ => .further)
    (fun target reaches => mt val_mem_map_iff.1 (apart target reaches))
    (fun _ _ met => .direct (refersTo_of_declared_mem met))
    (opens_of_callTree alone).children
  exact ⟨standalone, alone, same.trans unchanged⟩

end Expanded

/-- In every call tree, a node that is expanded at a definition has the
children of the tree of that definition, after each node that is met on the
way down and has the definition of an ancestor is made a recursive leaf.  The
tree of the definition exists, unless the root of the whole tree is reached
from it and has a source path that is no text where paths are compared: then
the comparison is the fault.  If no ancestor is reached, the children are the
same. -/
theorem callTree_subtrees_are_closed_trees (compilation : Compilation)
    (options : TreeOptions) (root : compilation.Place) (tree : CallNode)
    (built : (compilation.callTree options root).outcome = .ok tree)
    (ancestors : List CallNode) (node : CallNode)
    (reached : tree.PathTo ancestors node) (definition : compilation.Place)
    (openAt : compilation.OpenAt node definition)
    (expanded : ancestors = [] ∨
      compilation.isDependency options definition = .ok false) :
    (ancestors ≠ [] ∧ compilation.Reaches options definition root ∧
        compilation.HasUnreadablePath options root →
      (compilation.callTree options definition).outcome =
        .error (.noOperation
          (compilation.pathOf (compilation.node root)).shape "startswith")) ∧
    (¬ (ancestors ≠ [] ∧ compilation.Reaches options definition root ∧
        compilation.HasUnreadablePath options root) →
      ∃ standalone,
        (compilation.callTree options definition).outcome = .ok standalone ∧
        node.children =
          CallNode.closeAll (ancestors.filterMap CallNode.position?)
            standalone.children) ∧
    ((∀ target, compilation.Reaches options definition target →
        target.val ∉ ancestors.filterMap CallNode.position?) →
      ∃ standalone,
        (compilation.callTree options definition).outcome = .ok standalone ∧
        node.children = standalone.children) := by
  obtain ⟨path, lines, trail, nodeOpens⟩ :=
    exists_trail_of_openAt (opens_of_callTree built) reached openAt expanded
  have positions : ancestors.filterMap CallNode.position? = path.map Fin.val :=
    filterMap_eq_map lines fun _ _ => position?_of_openAt
  have below_iff : ancestors ≠ [] ↔ path ≠ [] := by
    rw [← List.length_pos_iff, lines.length_eq, List.length_pos_iff]
  rw [positions, below_iff]
  refine ⟨?_, ?_, ?_⟩
  · rintro ⟨below, reaches, unreadable⟩
    exact callTree_eq_error_of_unreadable built trail nodeOpens below reaches
      unreadable
  · intro readable
    exact exists_callTree_closing_above built trail nodeOpens
      fun below reaches unreadable => readable ⟨below, reaches, unreadable⟩
  · intro apart
    exact exists_callTree_with_same_children built trail nodeOpens
      fun target reaches onPath =>
        apart target reaches (val_mem_map_iff.2 onPath)

/-- `ping` is expanded in the tree of `pong` and closed below it in the tree of
`ping`. -/
theorem callTree_pingPong_closes_ping :
    (Reading.read (Sample.file pingPongUnits)).outcome = .ok pingPong ∧
      ∃ tree child standalone,
        (pingPong.callTree { ignorePrefixes := ["lib/"] } ping).outcome =
          .ok tree ∧
        tree.PathTo [tree] child ∧ pingPong.OpenAt child pong ∧
        (pingPong.callTree { ignorePrefixes := ["lib/"] } pong).outcome =
          .ok standalone ∧
        child.children = CallNode.closeAll [ping.val] standalone.children ∧
        ∃ inner ∈ standalone.children,
          pingPong.OpenAt inner ping ∧ inner.children ≠ [] := by
  have expandable : ∀ place,
      pingPong.pathOf (pingPong.node place) = .str "src/Game.sol" →
      pingPong.isDependency { ignorePrefixes := ["lib/"] } place =
        .ok false := by
    intro place path
    exact (isDependency_eq_false_iff textual_pingPong place).2
      (Or.inr ⟨_, path, by decide⟩)
  obtain ⟨tree, built, opens⟩ :=
    exists_callTree textual_pingPong { ignorePrefixes := ["lib/"] }
      refersTo_pong_ping.callable
  obtain ⟨child, member, classification, shows⟩ :=
    opens.exists_child textual_pingPong refersTo_ping_pong
  have childOpens := shows.opens (by decide) (expandable pong pathOf_pong)
  have reached : tree.PathTo [tree] child := .child .root member
  obtain ⟨-, closes, -⟩ :=
    callTree_subtrees_are_closed_trees pingPong { ignorePrefixes := ["lib/"] }
      ping tree built [tree] child reached pong childOpens.openAt
      (Or.inr (expandable pong pathOf_pong))
  obtain ⟨standalone, alone, same⟩ :=
    closes fun blocked => blocked.2.2.notText _ pathOf_ping
  rw [List.filterMap_cons_some (position?_of_openAt opens.openAt)] at same
  obtain ⟨inner, isInner, innerClass, innerShows⟩ :=
    (opens_of_callTree alone).exists_child textual_pingPong refersTo_pong_ping
  have innerOpens := innerShows.opens (by decide) (expandable ping pathOf_ping)
  obtain ⟨last, isLast, -⟩ :=
    innerOpens.exists_child textual_pingPong refersTo_ping_pong
  exact ⟨read_pingPong, tree, child, standalone, built, reached,
    childOpens.openAt, alone, same, inner, isInner, innerOpens.openAt,
    List.ne_nil_of_mem isLast⟩

/-! ### A root without a readable path -/

/-- Two functions that mention each other.  The path of the first is a number. -/
def roundTripUnits : List (String × Sample) :=
  [("src/a.sol",
      .unit 0 (.int 5)
        [.function 1 "depart" "nonpayable" [.identifier 2 "arrive" "" (some 4)]]),
    ("src/b.sol",
      .unit 3 (.str "src/b.sol")
        [.function 4 "arrive" "nonpayable" [.identifier 5 "depart" "" (some 1)]])]

def roundTrip : Compilation :=
  Sample.compilation roundTripUnits

def depart : roundTrip.Place :=
  ⟨1, by decide⟩

def arrive : roundTrip.Place :=
  ⟨4, by decide⟩

private theorem read_roundTrip :
    (Reading.read (Sample.file roundTripUnits)).outcome = .ok roundTrip :=
  (rfl)

private theorem sites_depart (options : TreeOptions) :
    roundTrip.sites options depart =
      [.declared arrive { callType := .internal }] := by
  rw [sites, Node.descendants, Node.visit_eq_preorderOfAll]
  rfl

private theorem sites_arrive (options : TreeOptions) :
    roundTrip.sites options arrive =
      [.declared depart { callType := .internal }] := by
  rw [sites, Node.descendants, Node.visit_eq_preorderOfAll]
  rfl

private theorem isDependency_arrive :
    roundTrip.isDependency { ignorePrefixes := ["lib/"] } arrive =
      .ok false := by
  have spelled : roundTrip.pathOf (roundTrip.node arrive) = .str "src/b.sol" :=
    (pathOf_of_unitOf? (unitOf?_of_parent (by decide) rfl rfl rfl)).trans rfl
  have apart : "src/b.sol".startsWith "lib/" = false := by
    rw [Bool.eq_false_iff, ne_eq, String.startsWith_string_iff]
    decide
  rw [isDependency, if_neg Bool.false_ne_true, spelled, hasIgnoredPath,
    List.any_cons, apart]
  rfl

private theorem hasUnreadablePath_depart :
    roundTrip.HasUnreadablePath { ignorePrefixes := ["lib/"] } depart where
  tested := List.cons_ne_nil _ _
  notText := by
    have spelled : roundTrip.pathOf (roundTrip.node depart) = .int 5 :=
      (pathOf_of_unitOf? (unitOf?_of_parent (by decide) rfl rfl rfl)).trans rfl
    intro text same
    rw [spelled] at same
    cases same

/-- The tree of the first function exists and expands the second one, which
has no tree of its own. -/
theorem callTree_roundTrip_has_no_tree_of_arrive :
    (Reading.read (Sample.file roundTripUnits)).outcome = .ok roundTrip ∧
      ∃ tree child,
        (roundTrip.callTree { ignorePrefixes := ["lib/"] } depart).outcome =
          .ok tree ∧
        tree.PathTo [tree] child ∧ roundTrip.OpenAt child arrive ∧
        roundTrip.isDependency { ignorePrefixes := ["lib/"] } arrive =
          .ok false ∧
        ∀ standalone,
          (roundTrip.callTree { ignorePrefixes := ["lib/"] } arrive).outcome ≠
            .ok standalone := by
  have closed : List.Forall₂
      (roundTrip.Shows { ignorePrefixes := ["lib/"] } [arrive, depart])
      (roundTrip.sites { ignorePrefixes := ["lib/"] } arrive)
      [roundTrip.targetNode depart { callType := .internal } true []] := by
    rw [sites_arrive]
    exact .cons (.recursive _ (by decide)) .nil
  have shown : List.Forall₂
      (roundTrip.Shows { ignorePrefixes := ["lib/"] } [depart])
      (roundTrip.sites { ignorePrefixes := ["lib/"] } depart)
      [roundTrip.targetNode arrive { callType := .internal } false
        [roundTrip.targetNode depart { callType := .internal } true []]] := by
    rw [sites_depart]
    exact .cons (.expanded _ (by decide) isDependency_arrive
      (expand_eq_ok_iff.2 closed)) .nil
  have refers : roundTrip.RefersTo arrive depart := by
    apply refersTo_of_declared_mem
    rw [sites_arrive { ignorePrefixes := ["lib/"] }]
    exact List.mem_cons_self
  obtain ⟨tree, built, opens⟩ :=
    exists_callTree_of_expand refers.callable (expand_eq_ok_iff.2 shown)
  have isSite : .declared arrive { callType := .internal } ∈
      roundTrip.sites { ignorePrefixes := ["lib/"] } depart := by
    rw [sites_depart]
    exact List.mem_cons_self
  obtain ⟨child, member, shows⟩ := exists_right_of_forall₂ opens.children isSite
  refine ⟨read_roundTrip, tree, child, built, .child .root member,
    (shows.opens (by decide) isDependency_arrive).openAt, isDependency_arrive,
    ?_⟩
  exact callTree_ne_ok_of_reaches (by decide) (.direct refers)
    (isDependency_eq_error_iff.2 ⟨hasUnreadablePath_depart, rfl⟩)

end Compilation

end ContractAtlas
