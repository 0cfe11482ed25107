/-
Calls of functions that do not change the state.

Leaving these calls out can make a high-level call internal and changes
nothing else.  A call that is low-level stays low-level, and the search through
library functions finds no call that it would not find otherwise: it visits
the same functions with the same functions open, and at each call it can only
go on where it would have ended.  The class of a call does not decide what is
expanded, so the two trees have the same nodes.
-/

import ContractAtlas.Proofs.Call.FirstReference

namespace ContractAtlas

/-- The second class is the first one, or internal instead of high-level. -/
inductive Classification.DowngradesTo : Classification → Classification → Prop
  | same (classification : Classification) :
      DowngradesTo classification classification
  | lowered :
      DowngradesTo { callType := .highLevel } { callType := .internal }

namespace CallNode

/-- The second tree is the first one, with some of its high-level nodes made
internal. -/
inductive DowngradesTo : CallNode → CallNode → Prop
  | same (info : CallInfo) {children others : List CallNode}
      (below : List.Forall₂ DowngradesTo children others) :
      DowngradesTo (mk info children) (mk info others)
  | lowered (info : CallInfo) (high : info.callType = .highLevel)
      {children others : List CallNode}
      (below : List.Forall₂ DowngradesTo children others) :
      DowngradesTo (mk info children)
        (mk { info with callType := .internal } others)

theorem DowngradesTo.children {node other : CallNode}
    (downgrades : node.DowngradesTo other) :
    List.Forall₂ DowngradesTo node.children other.children := by
  cases downgrades with
  | same info below => exact below
  | lowered info high below => exact below

theorem DowngradesTo.isExternal {node other : CallNode}
    (downgrades : node.DowngradesTo other) (external : other.isExternal = true) :
    node.isExternal = true := by
  cases downgrades with
  | same info below => exact external
  | lowered info high below => cases external

private theorem forall₂_visit {pending others : List CallNode}
    (downgrades : List.Forall₂ DowngradesTo pending others) :
    List.Forall₂ DowngradesTo (visit pending) (visit others) := by
  fun_induction visit pending generalizing others with
  | case1 =>
      rw [List.forall₂_nil_left_iff.1 downgrades, visit]
      exact .nil
  | case2 node pending inductionHypothesis =>
      obtain ⟨other, rest, first, later, rfl⟩ :=
        List.forall₂_cons_left_iff.1 downgrades
      rw [visit]
      exact .cons first
        (inductionHypothesis (List.rel_append first.children later))

private theorem countP_le_of_forall₂ {nodes others : List CallNode}
    {related : CallNode → CallNode → Prop} {counted : CallNode → Bool}
    (reflects : ∀ node other, related node other → counted other = true →
      counted node = true)
    (paired : List.Forall₂ related nodes others) :
    others.countP counted ≤ nodes.countP counted := by
  induction paired with
  | nil => exact Nat.le_refl _
  | @cons node other nodes others first later inductionHypothesis =>
      have own := reflects node other first
      rw [List.countP_cons, List.countP_cons]
      split
      · next holds =>
          rw [if_pos (own holds)]
          omega
      · omega

private theorem DowngradesTo.countExternal_le {root other : CallNode}
    (downgrades : root.DowngradesTo other) :
    other.countExternal ≤ root.countExternal :=
  countP_le_of_forall₂ (fun _ _ related => related.isExternal)
    (forall₂_visit (.cons downgrades .nil))

end CallNode

def TreeOptions.withNoStatic (options : TreeOptions) (noStatic : Bool) :
    TreeOptions :=
  { options with noStatic := noStatic }

/-- The second site is the first one, with its class perhaps lowered. -/
inductive Site.DowngradesTo {compilation : Compilation} :
    Site compilation → Site compilation → Prop
  | bare (site : Site compilation) : DowngradesTo site site
  | declared (target : compilation.Place) {plain lowered : Classification}
      (downgrades : plain.DowngradesTo lowered) :
      DowngradesTo (.declared target plain) (.declared target lowered)

namespace Compilation

variable {compilation : Compilation}

/-! ### Classes -/

theorem memberTarget?_eq_some_iff {noStatic : Bool} {callee : Node}
    {target : compilation.Place} :
    compilation.memberTarget? noStatic callee = some target ↔
      callee.kind = .memberAccess ∧
        compilation.referenced? callee = some target ∧
        (compilation.node target).kind = .functionDefinition ∧
        ¬ (noStatic = true ∧ (compilation.node target).isStatic = true) := by
  unfold memberTarget?
  by_cases isMember : callee.kind = .memberAccess
  · rw [if_pos isMember]
    cases compilation.referenced? callee with
    | none => simp
    | some other =>
        dsimp only
        split
        · next kept =>
            constructor
            · rintro ⟨⟩
              exact ⟨isMember, rfl, kept⟩
            · rintro ⟨-, same, -⟩
              exact same
        · next leftOut =>
            constructor
            · intro impossible
              cases impossible
            · rintro ⟨-, ⟨⟩, kept⟩
              exact absurd kept leftOut
  · simp [isMember]

/-- A call refers to the function that its callee reaches. -/
theorem referenced?_of_memberTarget? {noStatic : Bool} {call callee : Node}
    {target : compilation.Place} (isCall : call.kind = .functionCall)
    (called : call.callee? = some callee)
    (reached : compilation.memberTarget? noStatic callee = some target) :
    compilation.referenced? call = some target := by
  obtain ⟨isMember, refers, -⟩ := memberTarget?_eq_some_iff.1 reached
  have notCall : callee.kind ≠ .functionCall := by
    rw [isMember]
    exact Kind.noConfusion
  rw [← refers]
  simp [referenced?, Node.referencedPosition?, isCall, called, notCall]

theorem exists_memberTarget?_of_route {noStatic : Bool} {call : Node}
    (leaves : compilation.route noStatic call ≠ .ok .inside) :
    ∃ callee target, call.callee? = some callee ∧
      compilation.memberTarget? noStatic callee = some target := by
  unfold route at leaves
  cases called : call.callee? with
  | none => simp [called] at leaves
  | some callee =>
      cases reached : compilation.memberTarget? noStatic callee with
      | none => simp [called, reached] at leaves
      | some target => exact ⟨callee, target, rfl, reached⟩

private theorem library_eq_target {noStatic : Bool} {call callee : Node}
    {target other : compilation.Place} (called : call.callee? = some callee)
    (reached : compilation.memberTarget? noStatic callee = some target)
    (routed : compilation.route noStatic call = .ok (.library other)) :
    other = target := by
  unfold route at routed
  rw [called] at routed
  dsimp only at routed
  rw [reached] at routed
  dsimp only at routed
  split at routed
  · cases routed
  · split at routed
    · cases routed
      rfl
    · split at routed
      · cases routed
      · cases routed

private theorem route_eq_of_memberTarget? {call callee : Node}
    {target : compilation.Place} (called : call.callee? = some callee)
    (reached : compilation.memberTarget? true callee = some target) :
    compilation.route true call = compilation.route false call := by
  obtain ⟨isMember, refers, isFunction, -⟩ :=
    memberTarget?_eq_some_iff.1 reached
  have stillReached : compilation.memberTarget? false callee = some target :=
    memberTarget?_eq_some_iff.2 ⟨isMember, refers, isFunction, by simp⟩
  unfold route
  rw [called]
  dsimp only
  rw [reached, stillReached]

/-- A call that leaves the contract without the static functions leaves it in
the same way with them. -/
theorem route_of_noStatic {call : Node} {route : Route compilation}
    (found : compilation.route true call = .ok route)
    (leaves : route ≠ .inside) : compilation.route false call = .ok route := by
  have notInside : compilation.route true call ≠ .ok .inside := by
    rw [found]
    intro same
    exact leaves (Except.ok.inj same)
  obtain ⟨callee, target, called, reached⟩ :=
    exists_memberTarget?_of_route notInside
  rw [← route_eq_of_memberTarget? called reached]
  exact found

/-- An external call among the later calls is found behind every call. -/
theorem anyExternal_cons (legible : compilation.Legible) {noStatic : Bool}
    {visited : List compilation.Place} {call : Node} {rest : List Node}
    (callLegible : call.LegibleBelow)
    (later : compilation.anyExternal noStatic visited rest = .ok true) :
    compilation.anyExternal noStatic visited (call :: rest) = .ok true := by
  obtain ⟨kind, lowLevel⟩ := exists_lowLevelKind callLegible
  obtain ⟨route, routed⟩ := compilation.exists_route noStatic callLegible
  rw [anyExternal, lowLevel, routed]
  cases kind with
  | some kind => rfl
  | none =>
      cases route with
      | inside => exact later
      | outside => rfl
      | library target =>
          dsimp only
          split
          · obtain ⟨answer, below⟩ := exists_anyExternal legible noStatic
              (target :: visited) (compilation.callsBelow target)
              fun call member => legibleBelow_of_mem_callsBelow legible member
            rw [below]
            cases answer with
            | true => rfl
            | false => exact later
          · exact later

/-- The search without the static functions finds nothing that the search with
them misses.  Both have the same functions open at each call. -/
theorem anyExternal_of_noStatic (legible : compilation.Legible)
    {visited : List compilation.Place} {calls : List Node}
    (callsLegible : ∀ call ∈ calls, call.LegibleBelow)
    (found : compilation.anyExternal true visited calls = .ok true) :
    compilation.anyExternal false visited calls = .ok true := by
  fun_induction anyExternal compilation true visited calls with
  | case1 | case2 | case4 | case7 => cases found
  | case3 visited call rest kind lowLevel =>
      rw [anyExternal, lowLevel]
  | case5 visited call rest plain outside =>
      rw [anyExternal, plain, route_of_noStatic outside (by simp)]
  | case6 visited call rest plain inside restHypothesis =>
      obtain ⟨callLegible, restLegible⟩ := List.forall_mem_cons.1 callsLegible
      exact anyExternal_cons legible callLegible
        (restHypothesis restLegible found)
  | case8 visited call rest plain target routed fresh leaves
      targetHypothesis =>
      have below := targetHypothesis
        (fun call member => legibleBelow_of_mem_callsBelow legible member) leaves
      rw [anyExternal, plain, route_of_noStatic routed (by simp)]
      dsimp only
      rw [dif_pos fresh, below]
  | case9 visited call rest plain target routed fresh stays targetHypothesis
      restHypothesis =>
      obtain ⟨callLegible, restLegible⟩ := List.forall_mem_cons.1 callsLegible
      exact anyExternal_cons legible callLegible
        (restHypothesis restLegible found)
  | case10 visited call rest plain target routed stale restHypothesis =>
      obtain ⟨callLegible, restLegible⟩ := List.forall_mem_cons.1 callsLegible
      exact anyExternal_cons legible callLegible
        (restHypothesis restLegible found)

private theorem isHighLevel_of_noStatic (legible : compilation.Legible)
    {call : Node}
    (found : compilation.isHighLevel true call = .ok true) :
    compilation.isHighLevel false call = .ok true := by
  unfold isHighLevel at found ⊢
  split at found
  · cases found
  · cases found
  · next outside =>
      rw [route_of_noStatic outside (by simp)]
  · next target routed =>
      rw [route_of_noStatic routed (by simp)]
      dsimp only
      unfold forwards at found ⊢
      split at found
      · next returns =>
          rw [if_pos returns]
          exact anyExternal_of_noStatic legible
            (fun call member => legibleBelow_of_mem_callsBelow legible member)
            found
      · cases found

theorem route_ne_inside_of_isHighLevel {noStatic : Bool} {call : Node}
    (high : compilation.isHighLevel noStatic call = .ok true) :
    compilation.route noStatic call ≠ .ok .inside := by
  intro inside
  rw [isHighLevel, inside] at high
  cases high

/-- A call is downgraded for its target, which is static, or for what a
library function does. -/
theorem static_or_library_of_downgrade {call : Node}
    (isCall : call.kind = .functionCall)
    (high : compilation.isHighLevel false call = .ok true)
    (lowered : compilation.isHighLevel true call = .ok false) :
    ∃ target, compilation.referenced? call = some target ∧
      ((compilation.node target).isStatic = true ∨
        compilation.route false call = .ok (.library target)) := by
  obtain ⟨callee, target, called, reached⟩ :=
    exists_memberTarget?_of_route (route_ne_inside_of_isHighLevel high)
  refine ⟨target, referenced?_of_memberTarget? isCall called reached, ?_⟩
  by_cases static : (compilation.node target).isStatic = true
  · exact Or.inl static
  · obtain ⟨isMember, refers, isFunction, -⟩ :=
      memberTarget?_eq_some_iff.1 reached
    have stillReached : compilation.memberTarget? true callee = some target :=
      memberTarget?_eq_some_iff.2
        ⟨isMember, refers, isFunction, fun both => static both.2⟩
    have sameRoute := route_eq_of_memberTarget? called stillReached
    unfold isHighLevel at high lowered
    rw [sameRoute] at lowered
    cases routed : compilation.route false call with
    | error fault => simp [routed] at high
    | ok route =>
        cases route with
        | inside => simp [routed] at high
        | outside => simp [routed] at lowered
        | library other =>
            rw [library_eq_target called reached routed]
            exact Or.inr rfl

private theorem exists_classify_downgrades (textual : compilation.Textual)
    {call : Node}
    (callTextual : call.TextualBelow) :
    ∃ plain lowered, compilation.classify false call = .ok plain ∧
      compilation.classify true call = .ok lowered ∧
      plain.DowngradesTo lowered := by
  have legible := textual.legible
  obtain ⟨kind, lowLevel⟩ := exists_lowLevelKind callTextual.legible
  obtain ⟨high, isHigh⟩ := exists_isHighLevel legible false callTextual.legible
  obtain ⟨highStill, isHighStill⟩ :=
    exists_isHighLevel legible true callTextual.legible
  unfold classify
  rw [lowLevel, isHigh, isHighStill]
  cases kind with
  | some kind => exact ⟨_, _, rfl, rfl, .same _⟩
  | none =>
      cases highStill with
      | true =>
          have same : high = true :=
            Except.ok.inj
              (isHigh.symm.trans (isHighLevel_of_noStatic legible isHighStill))
          rw [same]
          exact ⟨_, _, rfl, rfl, .same _⟩
      | false =>
          cases high with
          | true => exact ⟨_, _, rfl, rfl, .lowered⟩
          | false => exact ⟨_, _, rfl, rfl, .same _⟩

private theorem isHighLevel_of_classify {noStatic : Bool} {call : Node}
    {classification : Classification}
    (classified : compilation.classify noStatic call = .ok classification)
    (plain : classification.callType ≠ .lowLevel) :
    compilation.isHighLevel noStatic call =
      .ok (classification.callType = .highLevel) := by
  unfold classify at classified
  split at classified
  · cases classified
  · cases classified
    exact absurd rfl plain
  · split at classified
    · cases classified
    · next high =>
        cases classified
        exact high
    · next notHigh =>
        cases classified
        exact notHigh

private theorem exists_classifyReference_downgrades
    (textual : compilation.Textual)
    {node : Node} (nodeTextual : node.TextualBelow) :
    ∃ plain lowered, compilation.classifyReference false node = .ok plain ∧
      compilation.classifyReference true node = .ok lowered ∧
      plain.DowngradesTo lowered := by
  unfold classifyReference
  split
  · exact exists_classify_downgrades textual nodeTextual
  · exact ⟨_, _, rfl, rfl, .same _⟩

/-! ### Trees -/

private theorem forall₂_sitesAmong_downgrades (textual : compilation.Textual)
    (options : TreeOptions) (definition : compilation.Place)
    (targets : List compilation.Place) (names : List Json.Key)
    {nodes : List Node} (nodesTextual : ∀ node ∈ nodes, node.TextualBelow) :
    List.Forall₂ Site.DowngradesTo
      (compilation.sitesAmong (options.withNoStatic false) definition targets
        names nodes)
      (compilation.sitesAmong (options.withNoStatic true) definition targets
        names nodes) := by
  induction nodes generalizing targets names with
  | nil => exact .nil
  | cons node rest inductionHypothesis =>
      obtain ⟨nodeTextual, restTextual⟩ := List.forall_mem_cons.1 nodesTextual
      have later := fun targets names =>
        inductionHypothesis targets names restTextual
      obtain ⟨kind, lowLevel⟩ := exists_lowLevelSite nodeTextual
      rw [sitesAmong, sitesAmong, lowLevel]
      cases kind with
      | some kind =>
          have sameFlag : (options.withNoStatic false).includeLowLevel =
              (options.withNoStatic true).includeLowLevel := rfl
          dsimp only
          rw [sameFlag]
          split
          · exact .cons (.bare _) (later targets names)
          · exact later targets names
      | none =>
          cases compilation.referenced? node with
          | none =>
              dsimp only
              split
              · split
                · exact .cons (.bare _) .nil
                · split
                  · exact later targets names
                  · exact .cons (.bare _) (later targets _)
              · exact later targets names
          | some target =>
              dsimp only
              split
              · exact later targets names
              · obtain ⟨plain, lowered, isPlain, isLowered, downgrades⟩ :=
                  exists_classifyReference_downgrades textual nodeTextual
                have first : compilation.classifyReference
                    (options.withNoStatic false).noStatic node = .ok plain :=
                  isPlain
                have second : compilation.classifyReference
                    (options.withNoStatic true).noStatic node = .ok lowered :=
                  isLowered
                rw [first, second]
                exact .cons (.declared target downgrades)
                  (later (target :: targets) names)

private theorem forall₂_sites_downgrades (textual : compilation.Textual)
    (options : TreeOptions) (definition : compilation.Place) :
    List.Forall₂ Site.DowngradesTo
      (compilation.sites (options.withNoStatic false) definition)
      (compilation.sites (options.withNoStatic true) definition) :=
  forall₂_sitesAmong_downgrades textual options definition [] []
    fun _ member => (textual definition).of_mem_descendants member

private theorem downgradesTo_targetNode {plain lowered : Classification}
    (downgrades : plain.DowngradesTo lowered) (target : compilation.Place)
    (recursive : Bool) {children others : List CallNode}
    (below : List.Forall₂ CallNode.DowngradesTo children others) :
    (compilation.targetNode target plain recursive children).DowngradesTo
      (compilation.targetNode target lowered recursive others) := by
  cases downgrades with
  | same => exact .same _ below
  | lowered => exact .lowered _ rfl below

/-- Sites of lower classes are shown by nodes of lower classes. -/
theorem exists_shows_downgrades (textual : compilation.Textual)
    (options : TreeOptions) {path : List compilation.Place}
    {sites others : List (Site compilation)} {nodes : List CallNode}
    (downgrades : List.Forall₂ Site.DowngradesTo sites others)
    (shown : List.Forall₂
      (compilation.Shows (options.withNoStatic false) path) sites nodes) :
    ∃ lowered,
      List.Forall₂ (compilation.Shows (options.withNoStatic true) path) others
        lowered ∧
      List.Forall₂ CallNode.DowngradesTo nodes lowered := by
  induction left : compilation.unvisited path using Nat.strongRecOn
    generalizing path sites others nodes with
  | ind _ pathHypothesis =>
      subst left
      -- The outer hypothesis is for the children of a target that is opened.
      induction shown generalizing others with
      | nil =>
          rw [List.forall₂_nil_left_iff.1 downgrades]
          exact ⟨[], .nil, .nil⟩
      | @cons site node sites nodes shows later laterHypothesis =>
          obtain ⟨other, rest, first, restDowngrades, rfl⟩ :=
            List.forall₂_cons_left_iff.1 downgrades
          obtain ⟨lowered, restShown, restLowered⟩ :=
            laterHypothesis restDowngrades
          suffices step : ∃ loweredNode,
              compilation.Shows (options.withNoStatic true) path other
                loweredNode ∧
              node.DowngradesTo loweredNode by
            obtain ⟨loweredNode, nodeShown, nodeLowered⟩ := step
            exact ⟨loweredNode :: lowered, .cons nodeShown restShown,
              .cons nodeLowered restLowered⟩
          have classed : ∀ target classification,
              site = .declared target classification →
              ∃ loweredClass, other = .declared target loweredClass ∧
                classification.DowngradesTo loweredClass := by
            rintro target classification rfl
            cases first with
            | bare => exact ⟨classification, rfl, .same classification⟩
            | declared _ lowers => exact ⟨_, rfl, lowers⟩
          cases shows with
          | lowLevel kind =>
              cases first with
              | bare => exact ⟨_, .lowLevel kind, .same _ .nil⟩
          | unresolved name src =>
              cases first with
              | bare => exact ⟨_, .unresolved name src, .same _ .nil⟩
          | recursive classification onPath =>
              obtain ⟨loweredClass, rfl, lowers⟩ := classed _ _ rfl
              exact ⟨_, .recursive loweredClass onPath,
                downgradesTo_targetNode lowers _ _ .nil⟩
          | dependency classification fresh decided =>
              obtain ⟨loweredClass, rfl, lowers⟩ := classed _ _ rfl
              exact ⟨_, .dependency loweredClass fresh decided,
                downgradesTo_targetNode lowers _ _ .nil⟩
          | @expanded target classification children fresh decided opened =>
              obtain ⟨loweredClass, rfl, lowers⟩ := classed _ _ rfl
              obtain ⟨loweredChildren, below, belowLowered⟩ :=
                pathHypothesis _ (compilation.unvisited_cons_lt fresh)
                  (forall₂_sites_downgrades textual options target)
                  (expand_eq_ok_iff.1 opened) rfl
              exact ⟨_,
                .expanded loweredClass fresh decided (expand_eq_ok_iff.2 below),
                downgradesTo_targetNode lowers _ _ belowLowered⟩

private theorem exists_callTree_downgrades (textual : compilation.Textual)
    (options : TreeOptions) {root : compilation.Place} {tree : CallNode}
    (built :
      (compilation.callTree (options.withNoStatic false) root).outcome =
        .ok tree) :
    ∃ lowered,
      (compilation.callTree (options.withNoStatic true) root).outcome =
        .ok lowered ∧
      tree.DowngradesTo lowered := by
  obtain ⟨callable, children, expanded, rfl⟩ := callTree_eq_ok_iff.1 built
  obtain ⟨lowered, shown, below⟩ := exists_shows_downgrades textual options
    (forall₂_sites_downgrades textual options root)
    (expand_eq_ok_iff.1 expanded)
  have opened := expand_eq_ok_iff.2 shown
  exact ⟨_, callTree_eq_ok_iff.2 ⟨callable, lowered, opened, rfl⟩,
    .same _ below⟩

/-! ### Static functions are not shown as external -/

private theorem isStatic_of_isHighLevel {call : Node}
    {target : compilation.Place}
    (high : compilation.isHighLevel true call = .ok true)
    (isCall : call.kind = .functionCall)
    (refers : compilation.referenced? call = some target) :
    (compilation.node target).isStatic = false := by
  obtain ⟨callee, other, called, reached⟩ :=
    exists_memberTarget?_of_route (route_ne_inside_of_isHighLevel high)
  rw [referenced?_of_memberTarget? isCall called reached] at refers
  rw [← Option.some.inj refers]
  have kept := (memberTarget?_eq_some_iff.1 reached).2.2.2
  simpa using kept

private theorem isStatic_of_classifyReference {node : Node}
    {target : compilation.Place}
    {classification : Classification}
    (points : compilation.PointsTo node target)
    (classified : compilation.classifyReference true node = .ok classification)
    (external : classification.callType.isExternal = true) :
    (compilation.node target).isStatic = false := by
  unfold classifyReference at classified
  split at classified
  · next isCall =>
      unfold classify at classified
      split at classified
      · cases classified
      · next kind lowLevel => exact absurd ⟨isCall, kind, lowLevel⟩ points.1
      · split at classified
        · cases classified
        · next high => exact isStatic_of_isHighLevel high isCall points.2
        · rw [← Except.ok.inj classified] at external
          cases external
  · rw [← Except.ok.inj classified] at external
    cases external

theorem countStatic_eq_zero (textual : compilation.Textual)
    {options : TreeOptions} (leftOut : options.noStatic = true)
    {root : compilation.Place} {tree : CallNode}
    (built : (compilation.callTree options root).outcome = .ok tree) :
    tree.countStatic = 0 := by
  rw [CallNode.countStatic, List.countP_eq_zero]
  intro node visited counted
  obtain ⟨external, static⟩ := Bool.and_eq_true_iff.1 counted
  rcases exists_site_of_mem_walk textual built visited with
    rfl | ⟨definition, path, site, isSite, shows⟩
  · rw [CallNode.isExternal, callType_of_callTree built] at external
    cases external
  · cases shows with
    | lowLevel | unresolved => cases static
    | recursive | dependency | expanded =>
        obtain ⟨-, reference, -, points, classified⟩ :=
          exists_pointsTo_of_declared_mem isSite
        rw [leftOut] at classified
        have changing :=
          isStatic_of_classifyReference points classified external
        have isStatic := (Bool.and_eq_true_iff.1 static).2
        exact absurd (changing.symm.trans isStatic) Bool.false_ne_true

/-- Leaving out the calls of static functions only downgrades.  A call has the
class of a low-level call of some kind with and without them or not at all, and
it is high-level without them only if it is high-level with them.  If it is
downgraded, then its target is static or is a library function.  The two call
trees of a root are the same but for nodes that are high-level in the one and
internal in the other, so no more external calls are counted, and none to a
static function. -/
theorem noStatic_only_downgrades (compilation : Compilation)
    (textual : compilation.Textual) :
    (∀ call : compilation.Place,
      (compilation.node call).kind = .functionCall →
      ∃ plain lowered,
        compilation.classify false (compilation.node call) = .ok plain ∧
        compilation.classify true (compilation.node call) = .ok lowered ∧
        (lowered.callType = .lowLevel ↔ plain.callType = .lowLevel) ∧
        lowered.lowLevel = plain.lowLevel ∧
        (lowered.callType = .highLevel → plain.callType = .highLevel) ∧
        (plain.callType = .highLevel → lowered.callType ≠ .highLevel →
          ∃ target,
            compilation.referenced? (compilation.node call) = some target ∧
            ((compilation.node target).isStatic = true ∨
              compilation.route false (compilation.node call) =
                .ok (.library target)))) ∧
    ∀ (options : TreeOptions) (root : compilation.Place),
      (compilation.node root).kind.isCallable = true →
      ∃ plain lowered,
        (compilation.callTree { options with noStatic := false } root).outcome =
          .ok plain ∧
        (compilation.callTree { options with noStatic := true } root).outcome =
          .ok lowered ∧
        plain.DowngradesTo lowered ∧
        lowered.countExternal ≤ plain.countExternal ∧
        lowered.countStatic = 0 := by
  constructor
  · intro call isCall
    obtain ⟨plain, lowered, isPlain, isLowered, downgrades⟩ :=
      exists_classify_downgrades textual (textual call)
    refine ⟨plain, lowered, isPlain, isLowered, ?_⟩
    cases downgrades with
    | same =>
        refine ⟨Iff.rfl, rfl, id, ?_⟩
        intro high notHigh
        exact absurd high notHigh
    | lowered =>
        refine ⟨by simp, rfl, nofun, ?_⟩
        intro _ _
        exact static_or_library_of_downgrade isCall
          (isHighLevel_of_classify isPlain nofun)
          (isHighLevel_of_classify isLowered nofun)
  · intro options root isCallable
    obtain ⟨plain, built, -⟩ :=
      exists_callTree textual (options.withNoStatic false) isCallable
    obtain ⟨lowered, builtLowered, downgrades⟩ :=
      exists_callTree_downgrades textual options built
    exact ⟨plain, lowered, built, builtLowered, downgrades,
      downgrades.countExternal_le, countStatic_eq_zero textual rfl builtLowered⟩

/-! ### A call of a view function -/

/-- `function deposit() view` and `function forward() { vault.deposit(); }` -/
abbrev viewing : Compilation :=
  forwarding "view" [callDeposit 3]

private theorem read_viewing :
    (Reading.read (Sample.file
      (forwardingUnits "view" [callDeposit 3]))).outcome = .ok viewing :=
  (rfl)

private theorem textual_viewing : viewing.Textual :=
  textual_forwarding _ (List.forall_mem_singleton.2 (textual_callDeposit 3))

private theorem classify_viewing (noStatic : Bool) :
    viewing.classify noStatic (inBody (callDeposit 3)) =
      .ok { callType := if noStatic then .internal else .highLevel } := by
  cases noStatic with
  | false => exact classify_callDeposit _ _ 3
  | true =>
      have inside : viewing.route true (inBody (callDeposit 3)) =
          .ok .inside := by
        rw [route, callee?_callDeposit]
        rfl
      rw [classify, lowLevelKind_callDeposit, isHighLevel, inside]
      rfl

theorem viewing_downgrades_deposit :
    (Reading.read (Sample.file
        (forwardingUnits "view" [callDeposit 3]))).outcome = .ok viewing ∧
      viewing.Textual ∧
      (viewing.node (forward _ _)).kind.isCallable = true ∧
      ∃ plain lowered,
        (viewing.callTree { ignorePrefixes := ["lib/"], noStatic := false }
          (forward _ _)).outcome = .ok plain ∧
        (viewing.callTree { ignorePrefixes := ["lib/"], noStatic := true }
          (forward _ _)).outcome = .ok lowered ∧
        plain.DowngradesTo lowered ∧
        (∃ child ∈ plain.children, child.info.callType = .highLevel) ∧
        (∃ child ∈ lowered.children, child.info.callType = .internal) ∧
        lowered.countExternal ≤ plain.countExternal ∧
        lowered.countStatic = 0 := by
  obtain ⟨plain, lowered, isPlain, isLowered, downgrades, counts⟩ :=
    (noStatic_only_downgrades viewing textual_viewing).2
      { ignorePrefixes := ["lib/"] } (forward _ _) rfl
  have classed : ∀ {options : TreeOptions} {tree : CallNode},
      (viewing.callTree options (forward _ _)).outcome = .ok tree →
      ∃ child ∈ tree.children, child.info.callType =
        if options.noStatic then .internal else .highLevel := by
    intro options tree built
    obtain ⟨child, only, -, classified⟩ :=
      (opens_of_callTree built).exists_child_of_first
        (firstReference_of_pointsTo _ (pointsTo_callDeposit _ _ 3))
    refine ⟨child, mem_children_of_filter only, ?_⟩
    have isCall : (inBody (callDeposit 3)).kind = .functionCall := rfl
    rw [classifyReference, if_pos isCall, classify_viewing] at classified
    exact (congrArg Classification.callType (Except.ok.inj classified)).symm
  exact ⟨read_viewing, textual_viewing, rfl, plain, lowered, isPlain, isLowered,
    downgrades, classed isPlain, classed isLowered, counts⟩

end Compilation

end ContractAtlas
