/-
The sites below a definition.

The walk below a definition meets a target exactly when the definition refers
to it, as long as nothing stops the walk, and in a textual compilation nothing
does.
-/

import ContractAtlas.Proofs.Call.Textual

namespace ContractAtlas

open Relation

/-- The site has no definition behind it. -/
def Site.IsBare {compilation : Compilation} : Site compilation → Prop
  | .lowLevel _ => True
  | .unresolved _ _ => True
  | .declared _ _ => False
  | .stop _ => False

namespace Compilation

/-- The node calls a member of an address that is not a user function. -/
def IsLowLevelCall (node : Node) : Prop :=
  node.kind = .functionCall ∧ ∃ kind, lowLevelKind node = .ok (some kind)

theorem isLowLevelCall_of_lowLevelSite {node : Node} {kind : LowLevelKind}
    (found : lowLevelSite node = .ok (some kind)) : IsLowLevelCall node := by
  unfold lowLevelSite at found
  split at found
  · next isCall => exact ⟨isCall, kind, found⟩
  · cases found

private theorem not_isLowLevelCall_of_lowLevelSite {node : Node}
    (found : lowLevelSite node = .ok none) : ¬ IsLowLevelCall node := by
  rintro ⟨isCall, kind, lowLevel⟩
  rw [lowLevelSite, if_pos isCall, lowLevel] at found
  cases found

variable (compilation : Compilation)

/-- The node refers to a definition and is not a low-level call. -/
def PointsTo (node : Node) (target : compilation.Place) : Prop :=
  ¬ IsLowLevelCall node ∧ compilation.referenced? node = some target

/-- A node below the first definition points to the second one, which is
another function or modifier. -/
structure RefersTo (definition target : compilation.Place) : Prop where
  other : target ≠ definition
  callable : (compilation.node target).kind.isCallable = true
  pointed : ∃ node, TransGen Node.HasChild (compilation.node definition) node ∧
    compilation.PointsTo node target

/-- The walk below a definition passes over a target: it is the definition
itself, it cannot be called or it was met before. -/
def PassesOver (definition : compilation.Place)
    (targets : List compilation.Place) (target : compilation.Place) : Prop :=
  target = definition ∨ (compilation.node target).kind.isCallable = false ∨
    target ∈ targets

variable {compilation}

theorem passesOver_iff {definition target : compilation.Place}
    {targets : List compilation.Place} :
    (target == definition || !(compilation.node target).kind.isCallable ||
        targets.contains target) = true ↔
      compilation.PassesOver definition targets target := by
  rw [Bool.or_eq_true, Bool.or_eq_true, beq_iff_eq, Bool.not_eq_true',
    List.contains_iff_mem, or_assoc]
  rfl

theorem passesOver_cons_iff {definition first target : compilation.Place}
    {targets : List compilation.Place} :
    compilation.PassesOver definition (first :: targets) target ↔
      target = first ∨ compilation.PassesOver definition targets target := by
  unfold PassesOver
  rw [List.mem_cons]
  grind

/-- What the walk does at one node: it stops, which no textual node makes it
do, or it goes on, perhaps with a bare site, or it meets a target for the first
time and takes the class of the node. -/
theorem sitesAmong_cons_cases (options : TreeOptions)
    (definition : compilation.Place) (targets : List compilation.Place)
    (names : List Json.Key) (node : Node) (rest : List Node) :
    (∃ fault,
        compilation.sitesAmong options definition targets names (node :: rest) =
          [.stop fault] ∧
        (compilation.Textual → ¬ node.TextualBelow)) ∨
      (∃ front moreNames, (∀ site ∈ front, site.IsBare) ∧
        (∀ target, compilation.PointsTo node target →
          compilation.PassesOver definition targets target) ∧
        compilation.sitesAmong options definition targets names (node :: rest) =
          front ++
            compilation.sitesAmong options definition targets moreNames rest) ∨
      ∃ target classification, compilation.PointsTo node target ∧
        ¬ compilation.PassesOver definition targets target ∧
        compilation.classifyReference options.noStatic node =
          .ok classification ∧
        compilation.sitesAmong options definition targets names (node :: rest) =
          .declared target classification ::
            compilation.sitesAmong options definition (target :: targets) names
              rest := by
  rw [sitesAmong]
  cases lowLevel : lowLevelSite node with
  | error fault =>
      refine Or.inl ⟨fault, rfl, fun _ nodeTextual => ?_⟩
      obtain ⟨kind, found⟩ := exists_lowLevelSite nodeTextual
      rw [lowLevel] at found
      cases found
  | ok kind =>
      cases kind with
      | some kind =>
          have isLowLevel := isLowLevelCall_of_lowLevelSite lowLevel
          refine Or.inr (Or.inl
            ⟨if options.includeLowLevel then [.lowLevel kind] else [], names,
              ?_, ?_, ?_⟩)
          · intro site member
            split at member
            · rw [List.mem_singleton.1 member]
              trivial
            · cases member
          · intro target points
            exact absurd isLowLevel points.1
          · dsimp only
            split
            · rfl
            · rfl
      | none =>
          have notLowLevel := not_isLowLevelCall_of_lowLevelSite lowLevel
          cases found : compilation.referenced? node with
          | none =>
              have pointless : ∀ target, compilation.PointsTo node target →
                  compilation.PassesOver definition targets target := by
                intro target points
                rw [points.2] at found
                cases found
              dsimp only
              split
              · cases keyed : (unresolvedName node).key? with
                | none =>
                    refine Or.inl ⟨_, rfl, fun _ nodeTextual => ?_⟩
                    obtain ⟨key, isKey⟩ := exists_unresolvedName_key nodeTextual
                    rw [keyed] at isKey
                    cases isKey
                | some key =>
                    dsimp only
                    split
                    · exact Or.inr (Or.inl ⟨[], names, by simp, pointless, rfl⟩)
                    · refine Or.inr (Or.inl
                        ⟨[.unresolved (unresolvedName node) node.src],
                          key :: names, ?_, pointless, rfl⟩)
                      intro site member
                      rw [List.mem_singleton.1 member]
                      trivial
              · exact Or.inr (Or.inl ⟨[], names, by simp, pointless, rfl⟩)
          | some target =>
              have points : compilation.PointsTo node target :=
                ⟨notLowLevel, found⟩
              dsimp only
              split
              · next skipped =>
                  refine Or.inr (Or.inl ⟨[], names, by simp, ?_, rfl⟩)
                  intro other otherPoints
                  have same : target = other :=
                    Option.some.inj (found.symm.trans otherPoints.2)
                  exact same ▸ passesOver_iff.1 skipped
              · next fresh =>
                  cases classified :
                      compilation.classifyReference options.noStatic node with
                  | error fault =>
                      refine Or.inl ⟨fault, rfl, fun textual nodeTextual => ?_⟩
                      obtain ⟨classification, isClass⟩ :=
                        exists_classifyReference textual options.noStatic
                          nodeTextual
                      rw [classified] at isClass
                      cases isClass
                  | ok classification =>
                      exact Or.inr (Or.inr ⟨target, classification, points,
                        fun passed => fresh (passesOver_iff.2 passed), rfl, rfl⟩)

/-- Nothing stops the walk over textual nodes. -/
theorem stop_notMem_sitesAmong (textual : compilation.Textual)
    (options : TreeOptions) (definition : compilation.Place)
    (targets : List compilation.Place) (names : List Json.Key)
    {nodes : List Node} (nodesTextual : ∀ node ∈ nodes, node.TextualBelow)
    (fault : Fault) :
    .stop fault ∉
      compilation.sitesAmong options definition targets names nodes := by
  induction nodes generalizing targets names with
  | nil =>
      intro member
      cases member
  | cons node rest inductionHypothesis =>
      obtain ⟨nodeTextual, restTextual⟩ := List.forall_mem_cons.1 nodesTextual
      rcases sitesAmong_cons_cases options definition targets names node rest with
        ⟨_, _, notTextual⟩ | ⟨front, moreNames, bare, -, walked⟩ |
        ⟨target, classification, -, -, -, walked⟩
      · exact absurd nodeTextual (notTextual textual)
      · rw [walked, List.mem_append, not_or]
        constructor
        · intro member
          exact bare _ member
        · exact inductionHypothesis targets moreNames restTextual
      · rw [walked, List.mem_cons, not_or]
        constructor
        · intro same
          cases same
        · exact inductionHypothesis (target :: targets) names restTextual

/-- A target that is met was not passed over, and it has the class of a node
that points to it. -/
theorem exists_pointsTo_of_declared_mem {options : TreeOptions}
    {definition : compilation.Place} {targets : List compilation.Place}
    {names : List Json.Key} {nodes : List Node} {target : compilation.Place}
    {classification : Classification}
    (met : .declared target classification ∈
      compilation.sitesAmong options definition targets names nodes) :
    ¬ compilation.PassesOver definition targets target ∧
      ∃ node ∈ nodes, compilation.PointsTo node target ∧
        compilation.classifyReference options.noStatic node =
          .ok classification := by
  induction nodes generalizing targets names with
  | nil => cases met
  | cons node rest inductionHypothesis =>
      rcases sitesAmong_cons_cases options definition targets names node rest with
        ⟨fault, stopped, -⟩ | ⟨front, moreNames, bare, -, walked⟩ |
        ⟨first, firstClass, points, fresh, classified, walked⟩
      · rw [stopped] at met
        cases List.mem_singleton.1 met
      · rw [walked] at met
        rcases List.mem_append.1 met with isFront | later
        · exact absurd isFront (bare _)
        · obtain ⟨fresh, other, isLater, points⟩ := inductionHypothesis later
          exact ⟨fresh, other, List.mem_cons_of_mem node isLater, points⟩
      · rw [walked] at met
        rcases List.mem_cons.1 met with same | later
        · cases same
          exact ⟨fresh, node, List.mem_cons_self, points, classified⟩
        · obtain ⟨freshLater, other, isLater, otherPoints⟩ :=
            inductionHypothesis later
          rw [passesOver_cons_iff, not_or] at freshLater
          exact ⟨freshLater.2, other, List.mem_cons_of_mem node isLater,
            otherPoints⟩

/-- A walk that nothing stops meets every target that is pointed to and not
passed over. -/
theorem exists_declared_mem {options : TreeOptions}
    {definition : compilation.Place} {targets : List compilation.Place}
    {names : List Json.Key} {nodes : List Node}
    (noStop : ∀ fault, .stop fault ∉
      compilation.sitesAmong options definition targets names nodes)
    {target : compilation.Place}
    (fresh : ¬ compilation.PassesOver definition targets target)
    (pointed : ∃ node ∈ nodes, compilation.PointsTo node target) :
    ∃ classification, .declared target classification ∈
      compilation.sitesAmong options definition targets names nodes := by
  induction nodes generalizing targets names with
  | nil =>
      obtain ⟨node, member, -⟩ := pointed
      cases member
  | cons node rest inductionHypothesis =>
      obtain ⟨other, member, points⟩ := pointed
      rcases sitesAmong_cons_cases options definition targets names node rest with
        ⟨fault, stopped, -⟩ | ⟨front, moreNames, -, passes, walked⟩ |
        ⟨first, firstClass, firstPoints, -, -, walked⟩
      · rw [stopped] at noStop
        exact absurd (List.mem_singleton_self _) (noStop fault)
      · rw [walked] at noStop ⊢
        rcases List.mem_cons.1 member with rfl | isLater
        · exact absurd (passes target points) fresh
        · obtain ⟨classification, later⟩ := inductionHypothesis
            (fun fault stopped =>
              noStop fault (List.mem_append_right front stopped))
            fresh ⟨other, isLater, points⟩
          exact ⟨classification, List.mem_append_right front later⟩
      · rw [walked] at noStop ⊢
        by_cases same : target = first
        · exact ⟨firstClass, same ▸ List.mem_cons_self⟩
        · rcases List.mem_cons.1 member with rfl | isLater
          · exact absurd (Option.some.inj (points.2.symm.trans firstPoints.2))
              same
          · obtain ⟨classification, later⟩ := inductionHypothesis
              (fun fault stopped =>
                noStop fault (List.mem_cons_of_mem _ stopped))
              (fun passed => (passesOver_cons_iff.1 passed).elim same fresh)
              ⟨other, isLater, points⟩
            exact ⟨classification, List.mem_cons_of_mem _ later⟩

/-! ### All sites of a definition -/

theorem stop_notMem_sites (textual : compilation.Textual)
    (options : TreeOptions) (definition : compilation.Place) (fault : Fault) :
    .stop fault ∉ compilation.sites options definition :=
  stop_notMem_sitesAmong textual options definition [] []
    (fun _ member => (textual definition).of_mem_descendants member) fault

theorem refersTo_of_declared_mem {options : TreeOptions}
    {definition target : compilation.Place} {classification : Classification}
    (met : .declared target classification ∈
      compilation.sites options definition) :
    compilation.RefersTo definition target := by
  obtain ⟨fresh, node, member, points, -⟩ := exists_pointsTo_of_declared_mem met
  unfold PassesOver at fresh
  rw [not_or, not_or, Bool.not_eq_false] at fresh
  exact ⟨fresh.1, fresh.2.1, node, Node.mem_descendants_iff.1 member, points⟩

theorem RefersTo.exists_site {options : TreeOptions}
    {definition target : compilation.Place}
    (refers : compilation.RefersTo definition target)
    (noStop : ∀ fault, .stop fault ∉ compilation.sites options definition) :
    ∃ classification, .declared target classification ∈
      compilation.sites options definition := by
  obtain ⟨other, callable, node, below, points⟩ := refers
  apply exists_declared_mem noStop
  · rintro (same | notCallable | met)
    · exact other same
    · rw [callable] at notCallable
      cases notCallable
    · cases met
  · exact ⟨node, Node.mem_descendants_iff.2 below, points⟩

/-- The targets among the sites of a definition are those it refers to. -/
theorem declared_mem_sites_iff (textual : compilation.Textual)
    (options : TreeOptions) (definition target : compilation.Place) :
    (∃ classification, .declared target classification ∈
        compilation.sites options definition) ↔
      compilation.RefersTo definition target := by
  constructor
  · rintro ⟨classification, met⟩
    exact refersTo_of_declared_mem met
  · intro refers
    exact refers.exists_site (stop_notMem_sites textual options definition)

end Compilation

end ContractAtlas
