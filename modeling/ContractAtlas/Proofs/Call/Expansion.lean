/-
What one site of a definition becomes in a call tree.

The children of a tree node are its sites, one by one.  Whether they are
expanded in turn depends only on the site and on the path from the root, and
in a textual compilation every list of sites can be expanded.
-/

import ContractAtlas.Proofs.Call.Sites
import ContractAtlas.Proofs.Paired

namespace ContractAtlas

namespace Journal

variable {α β : Type}

private theorem outcome_bind_eq_ok_iff {first : Journal α}
    {next : α → Journal β}
    {value : β} :
    (first >>= next).outcome = .ok value ↔
      ∃ found, first.outcome = .ok found ∧ (next found).outcome = .ok value := by
  rw [outcome_bind]
  cases first.outcome with
  | error fault =>
      constructor
      · intro failed
        cases failed
      · rintro ⟨found, failed, -⟩
        cases failed
  | ok found =>
      constructor
      · intro succeeds
        exact ⟨found, rfl, succeeds⟩
      · rintro ⟨other, same, succeeds⟩
        rw [Except.ok.inj same]
        exact succeeds

private theorem outcome_bind_eq_error_iff {first : Journal α}
    {next : α → Journal β}
    {fault : Fault} :
    (first >>= next).outcome = .error fault ↔
      first.outcome = .error fault ∨
        ∃ found, first.outcome = .ok found ∧
          (next found).outcome = .error fault := by
  rw [outcome_bind]
  cases first.outcome with
  | error other => simp [Except.bind]
  | ok found => simp [Except.bind]

/-- A step that only returns a value adds no fault. -/
theorem outcome_eq_error_of_bind_pure {first : Journal α} {value : α → β}
    {fault : Fault}
    (failed : (first >>= fun found => pure (value found)).outcome =
      .error fault) :
    first.outcome = .error fault := by
  rcases outcome_bind_eq_error_iff.1 failed with earlier | ⟨_, -, impossible⟩
  · exact earlier
  · cases impossible

end Journal

namespace Compilation

variable (compilation : Compilation) (options : TreeOptions)

/-- A tree node stands for a site below a path. -/
inductive Shows (path : List compilation.Place) :
    Site compilation → CallNode → Prop
  | lowLevel (kind : LowLevelKind) :
      Shows path (.lowLevel kind)
        (.mk
          { name := .text kind.name
            callType := .lowLevel
            lowLevel := some kind }
          [])
  | unresolved (name src : Json) :
      Shows path (.unresolved name src) (.mk { name := .plain name } [])
  | recursive {target : compilation.Place} (classification : Classification)
      (onPath : target ∈ path) :
      Shows path (.declared target classification)
        (compilation.targetNode target classification true [])
  | dependency {target : compilation.Place} (classification : Classification)
      (fresh : target ∉ path)
      (decided : compilation.isDependency options target = .ok true) :
      Shows path (.declared target classification)
        (compilation.targetNode target classification false [])
  | expanded {target : compilation.Place} (classification : Classification)
      {children : List CallNode} (fresh : target ∉ path)
      (decided : compilation.isDependency options target = .ok false)
      (opened :
        (compilation.expand options (target :: path)
          (compilation.sites options target)).outcome = .ok children) :
      Shows path (.declared target classification)
        (compilation.targetNode target classification false children)

variable {compilation options}

private theorem expand_cons_eq_ok_iff {path : List compilation.Place}
    {site : Site compilation} {rest : List (Site compilation)}
    {nodes : List CallNode} :
    (compilation.expand options path (site :: rest)).outcome = .ok nodes ↔
      ∃ node others, compilation.Shows options path site node ∧
        (compilation.expand options path rest).outcome = .ok others ∧
        nodes = node :: others := by
  constructor
  · intro succeeds
    cases site with
    | stop fault =>
        rw [expand] at succeeds
        cases succeeds
    | lowLevel kind =>
        rw [expand, Journal.outcome_bind_eq_ok_iff] at succeeds
        obtain ⟨others, later, same⟩ := succeeds
        exact ⟨_, others, .lowLevel kind, later, (Except.ok.inj same).symm⟩
    | unresolved name src =>
        rw [expand, Journal.outcome_bind_eq_ok_iff] at succeeds
        obtain ⟨-, -, succeeds⟩ := succeeds
        obtain ⟨others, later, same⟩ :=
          Journal.outcome_bind_eq_ok_iff.1 succeeds
        exact ⟨_, others, .unresolved name src, later,
          (Except.ok.inj same).symm⟩
    | declared target classification =>
        rw [expand] at succeeds
        split at succeeds
        · next onPath =>
            obtain ⟨others, later, same⟩ :=
              Journal.outcome_bind_eq_ok_iff.1 succeeds
            exact ⟨_, others, .recursive classification onPath, later,
              (Except.ok.inj same).symm⟩
        · next fresh =>
            obtain ⟨dependency, decided, succeeds⟩ :=
              Journal.outcome_bind_eq_ok_iff.1 succeeds
            cases dependency with
            | true =>
                obtain ⟨others, later, same⟩ :=
                  Journal.outcome_bind_eq_ok_iff.1 succeeds
                exact ⟨_, others, .dependency classification fresh decided,
                  later, (Except.ok.inj same).symm⟩
            | false =>
                obtain ⟨children, opened, succeeds⟩ :=
                  Journal.outcome_bind_eq_ok_iff.1 succeeds
                obtain ⟨others, later, same⟩ :=
                  Journal.outcome_bind_eq_ok_iff.1 succeeds
                exact ⟨_, others,
                  .expanded classification fresh decided opened, later,
                  (Except.ok.inj same).symm⟩
  · rintro ⟨node, others, shows, later, rfl⟩
    cases shows with
    | lowLevel kind =>
        rw [expand, Journal.outcome_bind_eq_ok_iff]
        exact ⟨others, later, rfl⟩
    | unresolved name src =>
        rw [expand, Journal.outcome_bind_eq_ok_iff]
        exact ⟨(), rfl, Journal.outcome_bind_eq_ok_iff.2 ⟨others, later, rfl⟩⟩
    | recursive classification onPath =>
        rw [expand, dif_pos onPath, Journal.outcome_bind_eq_ok_iff]
        exact ⟨others, later, rfl⟩
    | dependency classification fresh decided =>
        rw [expand, dif_neg fresh, Journal.outcome_bind_eq_ok_iff]
        exact ⟨true, decided,
          Journal.outcome_bind_eq_ok_iff.2 ⟨others, later, rfl⟩⟩
    | @expanded target classification children fresh decided opened =>
        rw [expand, dif_neg fresh, Journal.outcome_bind_eq_ok_iff]
        refine ⟨false, decided, Journal.outcome_bind_eq_ok_iff.2 ?_⟩
        exact ⟨children, opened,
          Journal.outcome_bind_eq_ok_iff.2 ⟨others, later, rfl⟩⟩

/-- Expansion succeeds with the nodes that stand for the sites in turn. -/
theorem expand_eq_ok_iff {path : List compilation.Place}
    {sites : List (Site compilation)} {nodes : List CallNode} :
    (compilation.expand options path sites).outcome = .ok nodes ↔
      List.Forall₂ (compilation.Shows options path) sites nodes := by
  induction sites generalizing nodes with
  | nil =>
      rw [expand, Journal.outcome_pure, List.forall₂_nil_left_iff]
      constructor
      · intro same
        exact (Except.ok.inj same).symm
      · rintro rfl
        rfl
  | cons site rest inductionHypothesis =>
      rw [expand_cons_eq_ok_iff, List.forall₂_cons_left_iff]
      simp only [inductionHypothesis]

/-- A call tree is a definition that can be called with its sites below it. -/
theorem callTree_eq_ok_iff {root : compilation.Place} {tree : CallNode} :
    (compilation.callTree options root).outcome = .ok tree ↔
      (compilation.node root).kind.isCallable = true ∧
        ∃ children,
          (compilation.expand options [root]
            (compilation.sites options root)).outcome = .ok children ∧
          tree = .mk
            { declaration := some (compilation.callable root)
              name := compilation.displayDatum (compilation.node root) }
            children := by
  by_cases callable : (compilation.node root).kind.isCallable = true
  · rw [callTree, if_pos callable, Journal.outcome_bind_eq_ok_iff]
    simp only [callable, true_and, Journal.outcome_pure, Except.ok.injEq,
      eq_comm]
  · rw [callTree, if_neg callable]
    constructor
    · intro built
      cases built
    · intro built
      exact absurd built.1 callable

/-! ### Expansion ends with a result -/

private theorem exists_isDependency (textual : compilation.Textual)
    (options : TreeOptions) (target : compilation.Place) :
    ∃ dependency, compilation.isDependency options target = .ok dependency := by
  unfold isDependency
  split
  · exact ⟨false, rfl⟩
  · obtain ⟨path, spelled⟩ := exists_pathOf textual target
    rw [spelled]
    exact ⟨_, rfl⟩

theorem stop_notMem_of_forall₂ {path : List compilation.Place}
    {sites : List (Site compilation)} {nodes : List CallNode}
    (shown : List.Forall₂ (compilation.Shows options path) sites nodes)
    (fault : Fault) : .stop fault ∉ sites := by
  intro stopped
  obtain ⟨node, -, shows⟩ := exists_right_of_forall₂ shown stopped
  cases shows

/-- Expansion fails at a stop, at a target that is new and whose source path
cannot be tested, below such a target, or at a later site. -/
theorem expand_cons_error_cases {path : List compilation.Place}
    {site : Site compilation} {rest : List (Site compilation)} {fault : Fault}
    (failed : (compilation.expand options path (site :: rest)).outcome =
      .error fault) :
    site = .stop fault ∨
      (∃ target classification, site = .declared target classification ∧
        target ∉ path ∧
        (compilation.isDependency options target = .error fault ∨
          compilation.isDependency options target = .ok false ∧
            (compilation.expand options (target :: path)
              (compilation.sites options target)).outcome = .error fault)) ∨
      (compilation.expand options path rest).outcome = .error fault := by
  cases site with
  | stop other =>
      rw [expand] at failed
      cases failed
      exact Or.inl rfl
  | lowLevel kind =>
      rw [expand] at failed
      exact Or.inr (Or.inr (Journal.outcome_eq_error_of_bind_pure failed))
  | unresolved name src =>
      rw [expand] at failed
      rcases Journal.outcome_bind_eq_error_iff.1 failed with
        impossible | ⟨-, -, later⟩
      · cases impossible
      · exact Or.inr (Or.inr (Journal.outcome_eq_error_of_bind_pure later))
  | declared target classification =>
      rw [expand] at failed
      split at failed
      · exact Or.inr (Or.inr (Journal.outcome_eq_error_of_bind_pure failed))
      · next fresh =>
          rcases Journal.outcome_bind_eq_error_iff.1 failed with
            untested | ⟨dependency, decided, failed⟩
          · exact Or.inr (Or.inl ⟨target, classification, rfl, fresh,
              Or.inl untested⟩)
          · cases dependency with
            | true =>
                exact Or.inr
                  (Or.inr (Journal.outcome_eq_error_of_bind_pure failed))
            | false =>
                rcases Journal.outcome_bind_eq_error_iff.1 failed with
                  below | ⟨children, -, later⟩
                · exact Or.inr (Or.inl ⟨target, classification, rfl, fresh,
                    Or.inr ⟨decided, below⟩⟩)
                · exact Or.inr
                    (Or.inr (Journal.outcome_eq_error_of_bind_pure later))

/-- A fault of an expansion comes from a stop among the sites, or from a
definition that is reached from them: its source path cannot be tested, or it
is opened and has a stop among its own sites. -/
theorem exists_source_of_fault (reached : compilation.Place → Prop)
    (closed : ∀ definition target, reached definition →
      compilation.isDependency options definition = .ok false →
      compilation.RefersTo definition target → reached target)
    {path : List compilation.Place} {sites : List (Site compilation)}
    (starts : ∀ target classification,
      .declared target classification ∈ sites → reached target)
    {fault : Fault}
    (failed : (compilation.expand options path sites).outcome =
      .error fault) :
    .stop fault ∈ sites ∨
      ∃ definition, reached definition ∧
        (compilation.isDependency options definition = .error fault ∨
          compilation.isDependency options definition = .ok false ∧
            .stop fault ∈ compilation.sites options definition) := by
  -- The path grows with each definition that is opened, and it never holds one
  -- twice.
  induction left : compilation.unvisited path using Nat.strongRecOn
    generalizing path sites with
  | ind _ pathHypothesis =>
      subst left
      -- The outer hypothesis is for the sites of a definition that is opened,
      -- the inner one for the sites after it.
      induction sites with
      | nil =>
          rw [expand] at failed
          cases failed
      | cons site rest restHypothesis =>
          rcases expand_cons_error_cases failed with
            rfl | ⟨target, classification, rfl, fresh, unopened⟩ | later
          · exact Or.inl List.mem_cons_self
          · have isReached := starts target classification List.mem_cons_self
            rcases unopened with untested | ⟨decided, below⟩
            · exact Or.inr ⟨target, isReached, Or.inl untested⟩
            · have belowReached : ∀ other otherClass,
                  .declared other otherClass ∈
                    compilation.sites options target → reached other :=
                fun other _ met => closed target other isReached decided
                  (refersTo_of_declared_mem met)
              rcases pathHypothesis _ (compilation.unvisited_cons_lt fresh)
                  belowReached below rfl with stopped | source
              · exact Or.inr ⟨target, isReached, Or.inr ⟨decided, stopped⟩⟩
              · exact Or.inr source
          · have laterReached : ∀ other otherClass,
                .declared other otherClass ∈ rest → reached other :=
              fun other otherClass met =>
                starts other otherClass (List.mem_cons_of_mem site met)
            rcases restHypothesis laterReached later with stopped | source
            · exact Or.inl (List.mem_cons_of_mem site stopped)
            · exact Or.inr source

/-- Sites without a stop can be expanded below every path. -/
theorem exists_expand (textual : compilation.Textual) (options : TreeOptions)
    (path : List compilation.Place) {sites : List (Site compilation)}
    (noStop : ∀ fault, .stop fault ∉ sites) :
    ∃ nodes, (compilation.expand options path sites).outcome = .ok nodes := by
  cases expanded : (compilation.expand options path sites).outcome with
  | ok nodes => exact ⟨nodes, rfl⟩
  | error fault =>
      rcases exists_source_of_fault (fun _ => True)
          (fun _ _ _ _ _ => trivial) (fun _ _ _ => trivial) expanded with
        stopped | ⟨definition, -, untested | ⟨-, stopped⟩⟩
      · exact absurd stopped (noStop fault)
      · obtain ⟨dependency, decided⟩ :=
          exists_isDependency textual options definition
        rw [decided] at untested
        cases untested
      · exact absurd stopped (stop_notMem_sites textual options definition fault)

end Compilation

end ContractAtlas
