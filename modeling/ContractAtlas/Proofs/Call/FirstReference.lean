/-
The first reference decides.

A definition may refer to a target many times: by calls of different classes
and by mentions that call nothing.  The tree shows the target once, at the
first of these references in the order of the walk, and with the class of that
reference.  A call through a contract is therefore shown as such when no other
reference to its target comes before it, and an earlier mention hides it.
-/

import ContractAtlas.Proofs.Call.Reachability

namespace ContractAtlas

namespace CallNode

private theorem mem_visit_of_mem {pending : List CallNode} {node : CallNode}
    (member : node ∈ pending) : node ∈ visit pending := by
  fun_induction visit pending with
  | case1 => cases member
  | case2 first pending inductionHypothesis =>
      rcases List.mem_cons.1 member with rfl | later
      · exact List.mem_cons_self
      · apply List.mem_cons_of_mem
        exact inductionHypothesis (List.mem_append_right _ later)

private theorem child_mem_visit {pending : List CallNode}
    {parent node : CallNode}
    (visited : parent ∈ visit pending) (child : node ∈ parent.children) :
    node ∈ visit pending := by
  fun_induction visit pending with
  | case1 => cases visited
  | case2 first pending inductionHypothesis =>
      apply List.mem_cons_of_mem
      rcases List.mem_cons.1 visited with rfl | later
      · exact mem_visit_of_mem (List.mem_append_left _ child)
      · exact inductionHypothesis later

private theorem PathTo.mem_walk {root node : CallNode}
    {ancestors : List CallNode}
    (reached : root.PathTo ancestors node) : node ∈ root.walk := by
  induction reached with
  | root => exact mem_visit_of_mem (List.mem_singleton_self root)
  | child reached member inductionHypothesis =>
      exact child_mem_visit inductionHypothesis member

private theorem PathTo.of_child {root child node : CallNode}
    {ancestors : List CallNode} (isChild : child ∈ root.children)
    (reached : child.PathTo ancestors node) :
    root.PathTo (ancestors ++ [root]) node := by
  induction reached with
  | root => exact .child .root isChild
  | child reached member inductionHypothesis =>
      exact .child inductionHypothesis member

private theorem exists_pathTo_of_mem_visit {pending : List CallNode}
    {node : CallNode}
    (visited : node ∈ visit pending) :
    ∃ start ∈ pending, ∃ ancestors, start.PathTo ancestors node := by
  fun_induction visit pending with
  | case1 => cases visited
  | case2 first pending inductionHypothesis =>
      rcases List.mem_cons.1 visited with rfl | later
      · exact ⟨node, List.mem_cons_self, [], .root⟩
      · obtain ⟨start, member, ancestors, reached⟩ := inductionHypothesis later
        rcases List.mem_append.1 member with isChild | isPending
        · exact ⟨first, List.mem_cons_self, _, reached.of_child isChild⟩
        · exact ⟨start, List.mem_cons_of_mem first isPending, ancestors, reached⟩

private theorem exists_pathTo_of_mem_walk {root node : CallNode}
    (visited : node ∈ root.walk) : ∃ ancestors, root.PathTo ancestors node := by
  obtain ⟨start, member, reached⟩ := exists_pathTo_of_mem_visit visited
  rw [List.mem_singleton.1 member] at reached
  exact reached

end CallNode

/-- The site stands for a reference to the target. -/
def Site.declares {compilation : Compilation} (target : compilation.Place) :
    Site compilation → Bool
  | .declared other _ => other == target
  | .lowLevel _ => false
  | .unresolved _ _ => false
  | .stop _ => false

theorem Site.declares_iff {compilation : Compilation}
    {target : compilation.Place} {site : Site compilation} :
    site.declares target = true ↔
      ∃ classification, site = .declared target classification := by
  cases site with
  | declared other classification =>
      simp only [declares, beq_iff_eq, Site.declared.injEq]
      constructor
      · intro same
        exact ⟨classification, same, rfl⟩
      · rintro ⟨_, same, _⟩
        exact same
  | lowLevel | unresolved | stop => simp [declares]

namespace Compilation

/-- A node below the definition is the first one, in the order of the walk,
that points to the target, which is another function or modifier. -/
structure FirstReference (compilation : Compilation)
    (definition : compilation.Place) (first : Node)
    (target : compilation.Place) : Prop where
  other : target ≠ definition
  callable : (compilation.node target).kind.isCallable = true
  pointed : compilation.PointsTo first target
  earliest : ∃ before after,
    (compilation.node definition).descendants = before ++ first :: after ∧
      ∀ earlier ∈ before, ¬ compilation.PointsTo earlier target

variable {compilation : Compilation} {options : TreeOptions}
  {definition root : compilation.Place}

/-! ### The site of a target -/

theorem filter_declares_eq_nil (targets : List compilation.Place)
    (names : List Json.Key) (nodes : List Node) {target : compilation.Place}
    (passes : compilation.PassesOver definition targets target) :
    (compilation.sitesAmong options definition targets names nodes).filter
      (Site.declares target) = [] := by
  rw [List.filter_eq_nil_iff]
  intro site member declares
  obtain ⟨classification, rfl⟩ := Site.declares_iff.1 declares
  exact (exists_pointsTo_of_declared_mem member).1 passes

/-- Unless the walk is stopped, there is one site for a target, with the class
of the first node that points to it. -/
theorem filter_declares_sitesAmong {targets : List compilation.Place}
    {names : List Json.Key} {before after : List Node} {first : Node}
    (noStop : ∀ fault, .stop fault ∉
      compilation.sitesAmong options definition targets names
        (before ++ first :: after))
    {target : compilation.Place}
    (fresh : ¬ compilation.PassesOver definition targets target)
    (pointed : compilation.PointsTo first target)
    (earliest : ∀ earlier ∈ before, ¬ compilation.PointsTo earlier target) :
    ∃ classification,
      compilation.classifyReference options.noStatic first =
        .ok classification ∧
      (compilation.sitesAmong options definition targets names
          (before ++ first :: after)).filter (Site.declares target) =
        [.declared target classification] := by
  induction before generalizing targets names with
  | nil =>
      rw [List.nil_append] at noStop ⊢
      rcases sitesAmong_cons_cases options definition targets names first
          after with
        ⟨fault, stopped, _⟩ | ⟨_, _, _, passes, _⟩ |
        ⟨found, classification, foundPoints, _, classified, walked⟩
      · rw [stopped] at noStop
        exact absurd (List.mem_singleton_self _) (noStop fault)
      · exact absurd (passes target pointed) fresh
      · have sameTarget : found = target :=
          Option.some.inj (foundPoints.2.symm.trans pointed.2)
        subst sameTarget
        have met : compilation.PassesOver definition (found :: targets) found :=
          passesOver_cons_iff.2 (Or.inl rfl)
        refine ⟨classification, classified, ?_⟩
        rw [walked, List.filter_cons_of_pos (by simp [Site.declares]),
          filter_declares_eq_nil _ _ _ met]
  | cons node rest inductionHypothesis =>
      obtain ⟨notNode, earliestRest⟩ := List.forall_mem_cons.1 earliest
      rw [List.cons_append] at noStop ⊢
      rcases sitesAmong_cons_cases options definition targets names node
          (rest ++ first :: after) with
        ⟨fault, stopped, _⟩ | ⟨front, moreNames, bare, _, walked⟩ |
        ⟨found, foundClass, foundPoints, _, _, walked⟩
      · rw [stopped] at noStop
        exact absurd (List.mem_singleton_self _) (noStop fault)
      · have frontEmpty : front.filter (Site.declares target) = [] := by
          rw [List.filter_eq_nil_iff]
          intro site member declares
          obtain ⟨otherClass, rfl⟩ := Site.declares_iff.1 declares
          exact bare _ member
        rw [walked] at noStop ⊢
        rw [List.filter_append, frontEmpty, List.nil_append]
        apply inductionHypothesis _ fresh earliestRest
        intro fault stopped
        exact noStop fault (List.mem_append_right front stopped)
      · -- The node points to another target, which is met from here on.
        have different : found ≠ target := by
          rintro rfl
          exact notNode foundPoints
        have stillFresh :
            ¬ compilation.PassesOver definition (found :: targets) target := by
          rw [passesOver_cons_iff, not_or]
          exact ⟨different.symm, fresh⟩
        rw [walked] at noStop ⊢
        rw [List.filter_cons_of_neg (by simpa [Site.declares] using different)]
        apply inductionHypothesis _ stillFresh earliestRest
        intro fault stopped
        exact noStop fault (List.mem_cons_of_mem _ stopped)

theorem FirstReference.exists_filter_sites {first : Node}
    {target : compilation.Place}
    (reference : compilation.FirstReference definition first target)
    (noStop : ∀ fault, .stop fault ∉ compilation.sites options definition) :
    ∃ classification,
      compilation.classifyReference options.noStatic first =
        .ok classification ∧
      (compilation.sites options definition).filter (Site.declares target) =
        [.declared target classification] := by
  obtain ⟨before, after, walked, earliest⟩ := reference.earliest
  have fresh : ¬ compilation.PassesOver definition [] target := by
    rintro (same | notCallable | met)
    · exact reference.other same
    · rw [reference.callable] at notCallable
      cases notCallable
    · cases met
  rw [sites, walked] at noStop ⊢
  exact filter_declares_sitesAmong noStop fresh reference.pointed earliest

/-! ### The child of a target -/

private theorem Shows.position?_iff {path : List compilation.Place}
    {site : Site compilation} {node : CallNode}
    (shows : compilation.Shows options path site node)
    (target : compilation.Place) :
    node.position? = some target.val ↔ site.declares target = true := by
  cases shows with
  | lowLevel | unresolved => simp [CallNode.position?, CallNode.info, Site.declares]
  | recursive | dependency | expanded =>
      simp only [CallNode.position?, targetNode, CallNode.info, Option.map_some,
        Option.some_inj, Site.declares, beq_iff_eq, callable, Fin.val_inj]

/-- Sites and nodes that stand for each other can be searched alike. -/
theorem forall₂_filter_declares {path : List compilation.Place}
    {sites : List (Site compilation)} {nodes : List CallNode}
    (shown : List.Forall₂ (compilation.Shows options path) sites nodes)
    (target : compilation.Place) :
    List.Forall₂ (compilation.Shows options path)
      (sites.filter (Site.declares target))
      (nodes.filter fun node => node.position? = some target.val) := by
  induction shown with
  | nil => exact .nil
  | @cons site node sites nodes shows later inductionHypothesis =>
      by_cases declares : site.declares target = true
      · have placed := (shows.position?_iff target).2 declares
        rw [List.filter_cons_of_pos declares,
          List.filter_cons_of_pos (by simpa using placed)]
        exact .cons shows inductionHypothesis
      · have elsewhere : ¬ node.position? = some target.val := by
          rw [shows.position?_iff target]
          exact declares
        rw [List.filter_cons_of_neg declares,
          List.filter_cons_of_neg (by simpa using elsewhere)]
        exact inductionHypothesis

theorem Shows.class_of_declared {path : List compilation.Place}
    {target : compilation.Place} {classification : Classification}
    {node : CallNode}
    (shows : compilation.Shows options path (.declared target classification)
      node) :
    (⟨node.info.callType, node.info.lowLevel⟩ : Classification) =
      classification := by
  cases shows with
  | recursive | dependency | expanded => rfl

theorem mem_children_of_filter {node child : CallNode} {shown : CallNode → Bool}
    (only : node.children.filter shown = [child]) : child ∈ node.children := by
  apply List.mem_of_mem_filter
  rw [only]
  exact List.mem_singleton_self child

/-- A node that is open at a definition has one child for a target, with the
class of the first reference to it. -/
theorem Opens.exists_child_of_first {path : List compilation.Place}
    {node : CallNode} (opens : compilation.Opens options definition path node)
    {first : Node} {target : compilation.Place}
    (reference : compilation.FirstReference definition first target) :
    ∃ child,
      (node.children.filter fun child => child.position? = some target.val) =
        [child] ∧
      child.info.declaration = some (compilation.callable target) ∧
      compilation.classifyReference options.noStatic first =
        .ok ⟨child.info.callType, child.info.lowLevel⟩ := by
  obtain ⟨classification, classified, site⟩ :=
    reference.exists_filter_sites (stop_notMem_of_forall₂ opens.children)
  have shown := forall₂_filter_declares opens.children target
  rw [site] at shown
  obtain ⟨child, others, shows, rest, same⟩ := List.forall₂_cons_left_iff.1 shown
  rw [List.forall₂_nil_left_iff.1 rest] at same
  refine ⟨child, same, shows.declaration, ?_⟩
  rw [shows.class_of_declared]
  exact classified

/-! ### Nodes that are expanded -/

theorem opens_of_callTree {tree : CallNode}
    (built : (compilation.callTree options root).outcome = .ok tree) :
    compilation.Opens options root [] tree := by
  obtain ⟨-, children, expanded, rfl⟩ := callTree_eq_ok_iff.1 built
  exact ⟨⟨rfl, rfl⟩, expand_eq_ok_iff.1 expanded⟩

theorem callType_of_callTree {tree : CallNode}
    (built : (compilation.callTree options root).outcome = .ok tree) :
    tree.info.callType = .internal := by
  obtain ⟨-, children, -, rfl⟩ := callTree_eq_ok_iff.1 built
  rfl

/-- A node of a tree is its root, or it shows a site of some definition. -/
theorem exists_site_of_mem_walk (textual : compilation.Textual) {tree : CallNode}
    (built : (compilation.callTree options root).outcome = .ok tree)
    {node : CallNode} (visited : node ∈ tree.walk) :
    node = tree ∨ ∃ definition path site,
      site ∈ compilation.sites options definition ∧
        compilation.Shows options path site node := by
  obtain ⟨ancestors, reached⟩ := CallNode.exists_pathTo_of_mem_walk visited
  obtain ⟨path, lines, stands⟩ :=
    stands_of_pathTo textual (opens_of_callTree built) reached
  cases stands with
  | root =>
      rw [List.forall₂_nil_right_iff.1 lines] at reached
      cases reached
      exact Or.inl rfl
  | shown trail isSite shows => exact Or.inr ⟨_, _, _, isSite, shows⟩

/-- Below the root, every node of a tree stands for a site. -/
theorem exists_shows_of_pathTo {tree : CallNode}
    (opens : compilation.Opens options root [] tree)
    {ancestors : List CallNode} {node : CallNode}
    (reached : tree.PathTo ancestors node) :
    (ancestors = [] ∧ node = tree) ∨
      ancestors ≠ [] ∧ ∃ path site, compilation.Shows options path site node := by
  induction reached with
  | root => exact Or.inl ⟨rfl, rfl⟩
  | child reached member inductionHypothesis =>
      refine Or.inr ⟨List.cons_ne_nil _ _, ?_⟩
      rcases inductionHypothesis with ⟨-, rfl⟩ | ⟨-, path, site, shows⟩
      · obtain ⟨site, -, shows⟩ := exists_left_of_forall₂ opens.children member
        exact ⟨_, site, shows⟩
      · cases shows with
        | lowLevel | unresolved | recursive | dependency => cases member
        | expanded classification fresh decided opened =>
            obtain ⟨site, -, shows⟩ :=
              exists_left_of_forall₂ (expand_eq_ok_iff.1 opened) member
            exact ⟨_, site, shows⟩

/-- A node with children is expanded at a definition. -/
theorem exists_openAt_of_mem {tree : CallNode}
    (opens : compilation.Opens options root [] tree)
    {ancestors : List CallNode} {parent child : CallNode}
    (reached : tree.PathTo ancestors parent)
    (member : child ∈ parent.children) :
    ∃ place, compilation.OpenAt parent place ∧
      (ancestors = [] ∨ compilation.isDependency options place = .ok false) := by
  rcases exists_shows_of_pathTo opens reached with
    ⟨isRoot, rfl⟩ | ⟨-, path, site, shows⟩
  · exact ⟨root, opens.openAt, Or.inl isRoot⟩
  · cases shows with
    | lowLevel | unresolved | recursive | dependency => cases member
    | expanded _ _ decided _ => exact ⟨_, ⟨rfl, rfl⟩, Or.inr decided⟩

/-- A node of a tree that stands for a definition ends a trail and has the
sites of the definition as children, unless it is recursive or a dependency
below the root. -/
theorem exists_trail_of_openAt {tree : CallNode}
    (opens : compilation.Opens options root [] tree)
    {ancestors : List CallNode} {node : CallNode}
    (reached : tree.PathTo ancestors node)
    (openAt : compilation.OpenAt node definition)
    (expanded : ancestors = [] ∨
      compilation.isDependency options definition = .ok false) :
    ∃ path, List.Forall₂ compilation.OpenAt ancestors path ∧
      compilation.Trail options root (definition :: path) ∧
      compilation.Opens options definition path node := by
  induction reached generalizing definition with
  | root =>
      have same : root = definition :=
        callable_injective
          (Option.some.inj (opens.openAt.1.symm.trans openAt.1))
      subst same
      exact ⟨[], .nil, .root, opens⟩
  | child reached member inductionHypothesis =>
      obtain ⟨place, parentOpen, parentExpanded⟩ :=
        exists_openAt_of_mem opens reached member
      obtain ⟨path, lines, trail, parentOpens⟩ :=
        inductionHypothesis parentOpen parentExpanded
      obtain ⟨site, isSite, shows⟩ :=
        exists_left_of_forall₂ parentOpens.children member
      obtain ⟨classification, rfl⟩ := shows.exists_target openAt.1
      have decided := expanded.resolve_left (List.cons_ne_nil _ _)
      have fresh : definition ∉ place :: path := by
        cases shows with
        | recursive => cases openAt.2
        | dependency _ fresh => exact fresh
        | expanded _ fresh => exact fresh
      exact ⟨place :: path, .cons parentOpen lines,
        .step trail (refersTo_of_declared_mem isSite) fresh decided,
        shows.opens fresh decided⟩

theorem exists_opens_of_openAt {tree : CallNode}
    (opens : compilation.Opens options root [] tree)
    {ancestors : List CallNode} {node : CallNode}
    (reached : tree.PathTo ancestors node)
    (openAt : compilation.OpenAt node definition)
    (expanded : ancestors = [] ∨
      compilation.isDependency options definition = .ok false) :
    ∃ path, compilation.Opens options definition path node := by
  obtain ⟨path, -, -, nodeOpens⟩ :=
    exists_trail_of_openAt opens reached openAt expanded
  exact ⟨path, nodeOpens⟩

/-- In every call tree, a node that is expanded at a definition has exactly one
child for each function or modifier that the definition refers to.  The class
of that child is the class of the first reference to it in the order of the
walk.  So a call through a contract or an address is shown as such, and
counted as external, if it is the first reference to its target. -/
theorem callTree_shows_class_of_first_reference (compilation : Compilation)
    (options : TreeOptions) (root : compilation.Place) (tree : CallNode)
    (built : (compilation.callTree options root).outcome = .ok tree)
    (ancestors : List CallNode) (node : CallNode)
    (reached : tree.PathTo ancestors node) (definition : compilation.Place)
    (openAt : compilation.OpenAt node definition)
    (expanded : ancestors = [] ∨
      compilation.isDependency options definition = .ok false)
    (first : Node) (target : compilation.Place)
    (reference : compilation.FirstReference definition first target) :
    ∃ child,
      (node.children.filter fun child => child.position? = some target.val) =
        [child] ∧
      child.info.declaration = some (compilation.callable target) ∧
      compilation.classifyReference options.noStatic first =
        .ok ⟨child.info.callType, child.info.lowLevel⟩ ∧
      (first.kind = .functionCall →
        compilation.classify options.noStatic first =
          .ok { callType := .highLevel } →
        child.info.callType = .highLevel ∧
          child ∈ tree.walk.filter CallNode.isExternal) := by
  obtain ⟨path, opens⟩ :=
    exists_opens_of_openAt (opens_of_callTree built) reached openAt expanded
  obtain ⟨child, only, declared, classified⟩ :=
    opens.exists_child_of_first reference
  refine ⟨child, only, declared, classified, ?_⟩
  intro isCall highLevel
  have shownHigh : child.info.callType = .highLevel := by
    rw [classifyReference, if_pos isCall, highLevel] at classified
    exact (congrArg Classification.callType (Except.ok.inj classified)).symm
  have isChild : child ∈ node.children := mem_children_of_filter only
  refine ⟨shownHigh, List.mem_filter.2 ⟨?_, ?_⟩⟩
  · exact (CallNode.PathTo.child reached isChild).mem_walk
  · rw [CallNode.isExternal, shownHigh]
    rfl

/-! ### A call behind a mention -/

/-- `vault.deposit`, where `deposit` is the function at position one. -/
def vaultDeposit (id : Nat) : Sample :=
  .member id "deposit" (some 1)
    (.identifier (id + 1) "vault" "contract Vault" none)

/-- `vault.deposit()` -/
def callDeposit (id : Nat) : Sample :=
  .call id (vaultDeposit (id + 1))

/-- `function deposit()` of some mutability, and `function forward()` with the
given body. -/
def forwardingUnits (mutability : String) (body : List Sample) :
    List (String × Sample) :=
  [("src/Vault.sol",
    .unit 0 (.str "src/Vault.sol")
      [.function 1 "deposit" mutability [],
        .function 2 "forward" "nonpayable" body])]

def forwarding (mutability : String) (body : List Sample) : Compilation :=
  Sample.compilation (forwardingUnits mutability body)

/-- The node of a sample in the body of `forward`. -/
def inBody (sample : Sample) : Node :=
  sample.node (some 2) "body" true

section Forwarding

variable (mutability : String) (body : List Sample)

def deposit : (forwarding mutability body).Place :=
  ⟨1, Nat.succ_lt_succ (Nat.zero_lt_succ _)⟩

def forward : (forwarding mutability body).Place :=
  ⟨2, Nat.succ_lt_succ (Nat.succ_lt_succ (Nat.zero_lt_succ _))⟩

private theorem textual_vaultDeposit (id : Nat) : (vaultDeposit id).Textual :=
  Sample.textual_member _ _ _ (Sample.textual_identifier _ _ _ _)

theorem textual_callDeposit (id : Nat) : (callDeposit id).Textual :=
  Sample.textual_call _ (textual_vaultDeposit _)

theorem textual_forwarding {body : List Sample}
    (bodyTextual : ∀ sample ∈ body, sample.Textual) :
    (forwarding mutability body).Textual := by
  apply Sample.textual_compilation
  refine List.forall_mem_singleton.2 (Sample.textual_unit _ _ ?_)
  refine List.forall_mem_cons.2 ⟨?_, List.forall_mem_singleton.2 ?_⟩
  · exact Sample.textual_function _ _ _ (List.forall_mem_nil _)
  · exact Sample.textual_function _ _ _ bodyTextual

theorem callee?_callDeposit (id : Nat) :
    (inBody (callDeposit id)).callee? =
      some ((vaultDeposit (id + 1)).node (some id) "expression" false) :=
  Node.callee?_of_memberAccess rfl rfl

theorem pointsTo_callDeposit (id : Nat) :
    (forwarding mutability body).PointsTo (inBody (callDeposit id))
      (deposit mutability body) := by
  constructor
  · rintro ⟨-, kind, lowLevel⟩
    rw [lowLevelKind, callee?_callDeposit] at lowLevel
    cases lowLevel
  · have isCall : (inBody (callDeposit id)).kind = .functionCall := rfl
    rw [referenced?, Node.referencedPosition?, if_pos isCall,
      callee?_callDeposit]
    rfl

private theorem pointsTo_vaultDeposit (id : Nat) :
    (forwarding mutability body).PointsTo (inBody (vaultDeposit id))
      (deposit mutability body) := by
  constructor
  · rintro ⟨isCall, -⟩
    cases isCall
  · rfl

theorem descendants_forward :
    ((forwarding mutability body).node (forward mutability body)).descendants =
      Node.preorderOfAll (body.map inBody) := by
  have children :
      ((forwarding mutability body).node (forward mutability body)).children =
        body.map inBody :=
    List.flatMap_singleton _ _
  rw [Node.descendants, children, Node.visit_eq_preorderOfAll]

theorem lowLevelKind_callDeposit (id : Nat) :
    lowLevelKind (inBody (callDeposit id)) = .ok none := by
  rw [lowLevelKind, callee?_callDeposit]
  rfl

theorem classify_callDeposit (id : Nat) :
    (forwarding mutability body).classify false (inBody (callDeposit id)) =
      .ok { callType := .highLevel } := by
  have outside : (forwarding mutability body).route false
      (inBody (callDeposit id)) = .ok .outside := by
    rw [route, callee?_callDeposit]
    rfl
  rw [classify, lowLevelKind_callDeposit, isHighLevel, outside]

/-- The first statement of the body is the first reference to what it points
to. -/
theorem firstReference_of_pointsTo {first : Sample} {body : List Sample}
    (points : (forwarding mutability (first :: body)).PointsTo (inBody first)
      (deposit mutability (first :: body))) :
    (forwarding mutability (first :: body)).FirstReference
      (forward mutability (first :: body)) (inBody first)
      (deposit mutability (first :: body)) where
  other := by
    intro same
    cases congrArg Fin.val same
  callable := rfl
  pointed := points
  earliest := by
    refine ⟨[], Node.preorderOfAll (inBody first).children ++
      Node.preorderOfAll (body.map inBody), ?_, List.forall_mem_nil _⟩
    rw [descendants_forward, List.map_cons, Node.preorderOfAll,
      Node.preorder_eq]
    rfl

end Forwarding

/-- `function forward() { vault.deposit.selector; vault.deposit(); }` -/
def mentionFirstBody : List Sample :=
  [vaultDeposit 3, callDeposit 5]

abbrev mentionFirst : Compilation :=
  forwarding "payable" mentionFirstBody

private theorem read_mentionFirst :
    (Reading.read (Sample.file
      (forwardingUnits "payable" mentionFirstBody))).outcome =
        .ok mentionFirst :=
  (rfl)

private theorem read_forwardingCall :
    (Reading.read (Sample.file
      (forwardingUnits "payable" [callDeposit 3]))).outcome =
        .ok (forwarding "payable" [callDeposit 3]) :=
  (rfl)

theorem callTree_forward_shows_call :
    (Reading.read (Sample.file
        (forwardingUnits "payable" [callDeposit 3]))).outcome =
          .ok (forwarding "payable" [callDeposit 3]) ∧
      ∃ tree,
        ((forwarding "payable" [callDeposit 3]).callTree
          { ignorePrefixes := ["lib/"] } (forward _ _)).outcome = .ok tree ∧
        (forwarding "payable" [callDeposit 3]).OpenAt tree (forward _ _) ∧
        (forwarding "payable" [callDeposit 3]).FirstReference (forward _ _)
          (inBody (callDeposit 3)) (deposit _ _) ∧
        ∃ child ∈ tree.children, child.info.callType = .highLevel ∧
          child ∈ tree.walk.filter CallNode.isExternal := by
  have isFirst := firstReference_of_pointsTo "payable"
    (pointsTo_callDeposit "payable" [callDeposit 3] 3)
  obtain ⟨tree, built, opens⟩ := exists_callTree
    (textual_forwarding "payable"
      (List.forall_mem_singleton.2 (textual_callDeposit 3)))
    { ignorePrefixes := ["lib/"] }
    (show ((forwarding "payable" [callDeposit 3]).node
      (forward _ _)).kind.isCallable = true from rfl)
  obtain ⟨child, only, -, -, high⟩ :=
    callTree_shows_class_of_first_reference
      (forwarding "payable" [callDeposit 3]) { ignorePrefixes := ["lib/"] }
      (forward _ _) tree built [] tree .root (forward _ _) opens.openAt
      (Or.inl rfl) (inBody (callDeposit 3)) (deposit _ _)
      isFirst
  exact ⟨read_forwardingCall, tree, built, opens.openAt, isFirst, child,
    mem_children_of_filter only, high rfl (classify_callDeposit _ _ 3)⟩

/-- A call through a contract is hidden by a mention of its target before it:
it is below the root and high-level, and the child for its target is not. -/
theorem callTree_mention_hides_call :
    (Reading.read (Sample.file
        (forwardingUnits "payable" mentionFirstBody))).outcome =
          .ok mentionFirst ∧
      inBody (callDeposit 5) ∈ (mentionFirst.node (forward _ _)).descendants ∧
      (inBody (callDeposit 5)).kind = .functionCall ∧
      mentionFirst.classify false (inBody (callDeposit 5)) =
        .ok { callType := .highLevel } ∧
      mentionFirst.referenced? (inBody (callDeposit 5)) = some (deposit _ _) ∧
      (mentionFirst.node (deposit _ _)).kind = .functionDefinition ∧
      deposit "payable" mentionFirstBody ≠ forward _ _ ∧
      ∃ tree,
        (mentionFirst.callTree { ignorePrefixes := ["lib/"] }
          (forward _ _)).outcome = .ok tree ∧
        mentionFirst.OpenAt tree (forward _ _) ∧
        ∃ child ∈ tree.children,
          child.info.declaration = some (mentionFirst.callable (deposit _ _)) ∧
          child.info.callType = .internal := by
  have bodyTextual : ∀ sample ∈ mentionFirstBody, sample.Textual :=
    List.forall_mem_cons.2 ⟨textual_vaultDeposit 3,
      List.forall_mem_singleton.2 (textual_callDeposit 5)⟩
  obtain ⟨tree, built, opens⟩ := exists_callTree
    (textual_forwarding "payable" bodyTextual) { ignorePrefixes := ["lib/"] }
    (show (mentionFirst.node (forward _ _)).kind.isCallable = true from rfl)
  obtain ⟨child, only, declared, classified⟩ :=
    opens.exists_child_of_first (firstReference_of_pointsTo "payable"
      (pointsTo_vaultDeposit "payable" mentionFirstBody 3))
  have internal : child.info.callType = .internal :=
    (congrArg Classification.callType (Except.ok.inj classified)).symm
  refine ⟨read_mentionFirst, ?_, rfl, classify_callDeposit _ _ 5,
    (pointsTo_callDeposit _ _ 5).2, rfl, by decide, tree, built, opens.openAt,
    child, mem_children_of_filter only, declared, internal⟩
  rw [descendants_forward]
  exact List.mem_append_right _ (List.mem_append_left _ List.mem_cons_self)

end Compilation

end ContractAtlas
