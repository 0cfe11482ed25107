/-
Counters of roots and of contracts.

The counters of a contract are those of its roots, added up.  The counters of
the single roots are filed under their names, where a later root replaces an
earlier one of the same name.  Roots are told apart by their signatures, so two
of them may share a name, and then the counters that are filed do not add up to
those of the contract.
-/

import Mathlib.Algebra.BigOperators.Group.List.Basic
import Mathlib.Data.List.Induction
import ContractAtlas.Proofs.Call.Walk
import ContractAtlas.Proofs.Report.Batch
import ContractAtlas.Proofs.Source.Linearization

namespace ContractAtlas

/-! ### Adding counters -/

namespace CallStats

attribute [ext] CallStats

instance : Add CallStats where
  add left right :=
    { totalNodes := left.totalNodes + right.totalNodes
      externalCalls := left.externalCalls + right.externalCalls
      mutatingCalls := left.mutatingCalls + right.mutatingCalls
      staticCalls := left.staticCalls + right.staticCalls }

instance : Zero CallStats where
  zero := {}

instance : AddCommMonoid CallStats where
  add_assoc first second third := by
    ext <;> exact Nat.add_assoc _ _ _
  zero_add stats := by
    ext <;> exact Nat.zero_add _
  add_zero stats := by
    ext <;> exact Nat.add_zero _
  add_comm left right := by
    ext <;> exact Nat.add_comm _ _
  nsmul := nsmulRec

private theorem totalNodes_add (left right : CallStats) :
    (left + right).totalNodes = left.totalNodes + right.totalNodes :=
  rfl

theorem ofRoots_cons (root : CallNode) (rest : List CallNode) :
    ofRoots (root :: rest) = ofRoots [root] + ofRoots rest :=
  rfl

private theorem ofRoots_eq_sum (roots : List CallNode) :
    ofRoots roots = (roots.map fun root => ofRoots [root]).sum := by
  induction roots with
  | nil => rfl
  | cons root rest inductionHypothesis =>
      rw [ofRoots_cons, inductionHypothesis, List.map_cons, List.sum_cons]

theorem ofRoots_append (left right : List CallNode) :
    ofRoots (left ++ right) = ofRoots left + ofRoots right := by
  rw [ofRoots_eq_sum, ofRoots_eq_sum, ofRoots_eq_sum, List.map_append,
    List.sum_append]

/-- A tree has at least its root. -/
theorem totalNodes_pos (root : CallNode) : 1 ≤ (ofRoots [root]).totalNodes := by
  show 1 ≤ root.walk.length + 0
  rw [CallNode.walk_eq_cons, List.length_cons]
  omega

end CallStats

/-! ### Counters under names -/

namespace ContractReport

/-- The counters that are filed under a key. -/
def filed? (key : Option Json.Key) (entries : List (Json × CallStats)) :
    Option CallStats :=
  (entries.find? fun entry => entry.1.key? = key).map Prod.snd

theorem filed?_cons (key : Option Json.Key) (entry : Json × CallStats)
    (rest : List (Json × CallStats)) :
    filed? key (entry :: rest) =
      if entry.1.key? = key then some entry.2 else filed? key rest := by
  by_cases same : entry.1.key? = key
  · rw [filed?, List.find?_cons_of_pos (by exact decide_eq_true same),
      if_pos same, Option.map_some]
  · rw [filed?, List.find?_cons_of_neg (by exact mt of_decide_eq_true same),
      if_neg same, filed?]

private theorem filed?_putStats (key : Option Json.Key) (name : Json)
    (stats : CallStats) (entries : List (Json × CallStats)) :
    filed? key (putStats name stats entries) =
      if name.key? = key then some stats else filed? key entries := by
  induction entries with
  | nil => exact filed?_cons key (name, stats) []
  | cons entry rest inductionHypothesis =>
      obtain ⟨other, old⟩ := entry
      rw [putStats]
      split
      · next replaced =>
          rw [filed?_cons, filed?_cons]
          dsimp only
          rw [replaced]
          split
          · rfl
          · rfl
      · next kept =>
          rw [filed?_cons, filed?_cons, inductionHypothesis]
          dsimp only
          by_cases same : other.key? = key
          · rw [if_pos same, if_pos same, if_neg]
            intro sameName
            exact kept (same.trans sameName.symm)
          · rw [if_neg same, if_neg same]

/-- Under a new name the counters come on top of the others. -/
theorem sum_putStats_of_new {name : Json} (stats : CallStats)
    {entries : List (Json × CallStats)}
    (new : filed? name.key? entries = none) :
    ((putStats name stats entries).map Prod.snd).sum =
      (entries.map Prod.snd).sum + stats := by
  induction entries with
  | nil => exact add_comm stats 0
  | cons entry rest inductionHypothesis =>
      obtain ⟨other, old⟩ := entry
      rw [filed?_cons] at new
      split at new
      · cases new
      · next differs =>
          rw [putStats, if_neg differs, List.map_cons, List.sum_cons,
            inductionHypothesis new, List.map_cons, List.sum_cons, add_assoc]

/-- Under a name that was met they take the place of the earlier ones. -/
theorem sum_putStats_of_met {name : Json} (stats : CallStats)
    {old : CallStats} {entries : List (Json × CallStats)}
    (met : filed? name.key? entries = some old) :
    ((putStats name stats entries).map Prod.snd).sum + old =
      (entries.map Prod.snd).sum + stats := by
  induction entries with
  | nil => cases met
  | cons entry rest inductionHypothesis =>
      obtain ⟨other, first⟩ := entry
      rw [filed?_cons] at met
      split at met
      · next same =>
          cases met
          rw [putStats, if_pos same, List.map_cons, List.sum_cons, List.map_cons,
            List.sum_cons, add_right_comm, add_comm stats, add_right_comm]
      · next differs =>
          rw [putStats, if_neg differs, List.map_cons, List.sum_cons, add_assoc,
            inductionHypothesis met, List.map_cons, List.sum_cons, add_assoc]

/-- The counters of roots under their names. -/
def statsByName (roots : List CallNode) : List (Json × CallStats) :=
  roots.foldl
    (fun stats root => putStats root.name (CallStats.ofRoots [root]) stats) []

theorem statsByName_append (roots : List CallNode) (root : CallNode) :
    statsByName (roots ++ [root]) =
      putStats root.name (CallStats.ofRoots [root]) (statsByName roots) := by
  rw [statsByName, List.foldl_append, List.foldl_cons, List.foldl_nil,
    statsByName]

/-- A name stands for its last root. -/
theorem filed?_statsByName (key : Option Json.Key) (roots : List CallNode) :
    filed? key (statsByName roots) =
      (roots.reverse.find? fun root => root.name.key? = key).map
        fun root => CallStats.ofRoots [root] := by
  induction roots using List.reverseRecOn with
  | nil => rfl
  | append_singleton roots root inductionHypothesis =>
      rw [statsByName_append, filed?_putStats, inductionHypothesis,
        List.reverse_append, List.reverse_singleton, List.singleton_append]
      by_cases same : root.name.key? = key
      · rw [if_pos same, List.find?_cons_of_pos (by exact decide_eq_true same),
          Option.map_some]
      · rw [if_neg same,
          List.find?_cons_of_neg (by exact mt of_decide_eq_true same)]

private theorem filed?_eq_none_iff {key : Option Json.Key}
    {roots : List CallNode} :
    filed? key (statsByName roots) = none ↔
      key ∉ roots.map fun root => root.name.key? := by
  rw [filed?_statsByName, Option.map_eq_none_iff, List.find?_eq_none,
    List.mem_map]
  constructor
  · rintro absent ⟨root, member, same⟩
    exact absent root (List.mem_reverse.2 member) (decide_eq_true same)
  · intro absent root member same
    exact absent ⟨root, List.mem_reverse.1 member, of_decide_eq_true same⟩

private theorem one_le_of_filed? {key : Option Json.Key} {roots : List CallNode}
    {stats : CallStats} (found : filed? key (statsByName roots) = some stats) :
    1 ≤ stats.totalNodes := by
  rw [filed?_statsByName] at found
  obtain ⟨root, -, rfl⟩ := Option.map_eq_some_iff.1 found
  exact CallStats.totalNodes_pos root

/-- With different names nothing is replaced, and otherwise nodes are lost. -/
theorem sum_statsByName (roots : List CallNode) :
    ((roots.map fun root => root.name.key?).Nodup →
        ((statsByName roots).map Prod.snd).sum = CallStats.ofRoots roots) ∧
      ((statsByName roots).map Prod.snd).sum.totalNodes ≤
        (CallStats.ofRoots roots).totalNodes ∧
      (¬ (roots.map fun root => root.name.key?).Nodup →
        ((statsByName roots).map Prod.snd).sum.totalNodes <
          (CallStats.ofRoots roots).totalNodes) := by
  induction roots using List.reverseRecOn with
  | nil => exact ⟨fun _ => rfl, Nat.le_refl 0, fun repeats => absurd .nil repeats⟩
  | append_singleton roots root inductionHypothesis =>
      obtain ⟨same, atMost, fewer⟩ := inductionHypothesis
      have nodup : ((roots ++ [root]).map fun root => root.name.key?).Nodup ↔
          (roots.map fun root => root.name.key?).Nodup ∧
            root.name.key? ∉ roots.map fun root => root.name.key? := by
        rw [List.map_append, List.map_singleton, List.nodup_append_comm,
          List.singleton_append, List.nodup_cons, and_comm]
      rw [nodup, statsByName_append, CallStats.ofRoots_append,
        CallStats.totalNodes_add]
      cases found : filed? root.name.key? (statsByName roots) with
      | none =>
          have new := filed?_eq_none_iff.1 found
          rw [sum_putStats_of_new _ found, CallStats.totalNodes_add]
          refine ⟨fun distinct => by rw [same distinct.1], by omega, ?_⟩
          intro repeats
          have lost := fewer fun distinct => repeats ⟨distinct, new⟩
          omega
      | some old =>
          have met : ¬ root.name.key? ∉ roots.map fun root => root.name.key? := by
            intro new
            rw [filed?_eq_none_iff.2 new] at found
            cases found
          have replaced := congrArg CallStats.totalNodes
            (sum_putStats_of_met (CallStats.ofRoots [root]) found)
          rw [CallStats.totalNodes_add, CallStats.totalNodes_add] at replaced
          have oldNodes := one_le_of_filed? found
          refine ⟨fun distinct => absurd distinct.2 met, by omega, ?_⟩
          intro repeats
          omega

end ContractReport

/-! ### Names of roots -/

private theorem Signature.name_of_ofFunction {function : Node}
    {signature : Signature}
    (signed : ofFunction function = .ok signature) :
    signature.name = function.name.givenOr function.functionKind := by
  obtain ⟨types, -, signed⟩ := exists_of_bind_eq_ok signed
  obtain ⟨texts, -, signed⟩ := exists_of_bind_eq_ok signed
  cases signed
  rfl

private theorem Signature.exists_key_of_name {signature : Signature}
    {key : SignatureKey} (keyed : signature.key = .ok key) :
    ∃ nameKey, signature.name.key? = some nameKey := by
  obtain ⟨nameKey, isKey, -⟩ := exists_of_bind_eq_ok keyed
  rw [keyPart] at isKey
  split at isKey
  · next found => exact ⟨_, found⟩
  · cases isKey

private theorem Json.exists_key_of_isOneOf {texts : List String} {value : Json}
    (listed : value.isOneOf texts = true) : ∃ key, value.key? = some key := by
  obtain ⟨text, -, isText⟩ := List.any_eq_true.1 listed
  rw [Json.isText_iff.1 isText]
  exact ⟨.text text, rfl⟩

/-- A function that has a signature is shown under a name with a key. -/
theorem Node.exists_key_of_signature {function : Node} {signature : Signature}
    {key : SignatureKey} (isFunction : function.kind = .functionDefinition)
    (signed : Signature.ofFunction function = .ok signature)
    (keyed : signature.key = .ok key) :
    ∃ nameKey, function.displayName.key? = some nameKey := by
  rw [displayName, if_pos isFunction]
  by_cases given : function.name.isGiven = true
  · have named := Signature.exists_key_of_name keyed
    rw [Signature.name_of_ofFunction signed, Json.givenOr, if_pos given] at named
    rw [if_pos given]
    exact named
  · rw [if_neg given]
    split
    · next special => exact Json.exists_key_of_isOneOf special
    · exact ⟨.text "Unknown", rfl⟩

namespace Compilation

variable {compilation : Compilation} {options : AnalysisOptions}

private theorem name_of_hasTree {function : Node} {tree : CallNode}
    (grown : compilation.HasTree options function tree) :
    tree.name = function.displayName := by
  obtain ⟨place, stands, built⟩ := grown
  obtain ⟨-, children, -, rfl⟩ := callTree_eq_ok_iff.1 built
  exact congrArg Node.displayName stands.2

private theorem map_name_of_forall₂ {functions : List Node}
    {trees : List CallNode}
    (built : List.Forall₂ (compilation.HasTree options) functions trees) :
    trees.map CallNode.name = functions.map Node.displayName := by
  induction built with
  | nil => rfl
  | cons grown later inductionHypothesis =>
      rw [List.map_cons, List.map_cons, name_of_hasTree grown, inductionHypothesis]

private theorem keys_of_names {trees : List CallNode} {functions : List Node}
    (names : trees.map CallNode.name = functions.map Node.displayName) :
    (trees.map fun tree => tree.name.key?) =
      functions.map fun function => function.displayName.key? := by
  have mapped := congrArg (List.map Json.key?) names
  rw [List.map_map, List.map_map] at mapped
  exact mapped

private theorem exists_key_of_roots {contract : Node} {functions : List Node}
    (selected : compilation.roots options contract = .ok functions) :
    ∀ function ∈ functions, ∃ key, function.displayName.key? = some key := by
  intro function member
  obtain ⟨offered, signature, key, signed, keyed⟩ :=
    mem_of_firstOfEachSignature selected member
  obtain ⟨base, -, declared⟩ := List.mem_flatMap.1 offered
  have isFunction := (Node.mem_children_of_membersOfKind
    (List.mem_filter.1 declared).1).2
  exact Node.exists_key_of_signature isFunction signed keyed

/-- What an analysis reports of a contract in a compilation that was read. -/
theorem reports_of_analyze {output : Json} (isRead : compilation.ReadFrom output)
    {contract : Node} {report : ContractReport}
    (analyzed : (compilation.analyze options contract).outcome = .ok report) :
    compilation.Reports options contract report := by
  rcases exists_reports_or_raises isRead options contract with
    ⟨found, reports⟩ | ⟨fault, raises⟩
  · rw [outcome_analyze_of_reports reports] at analyzed
    cases analyzed
    exact reports
  · rw [outcome_analyze_of_raises raises] at analyzed
    cases analyzed

/-- The report on a contract files the counters of each root under its name,
and those of the last one if several roots are shown under one name.  So what is
filed adds up to the counters of the report exactly if no two functions that
are roots share a name. -/
theorem rootStats_add_up_iff {output : Json}
    (isRead : compilation.ReadFrom output) (options : AnalysisOptions)
    (contract : Node) {report : ContractReport}
    (analyzed : (compilation.analyze options contract).outcome = .ok report) :
    ∃ functions, compilation.roots options contract = .ok functions ∧
      report.roots.map CallNode.name = functions.map Node.displayName ∧
      (∀ function ∈ functions, ∃ key, function.displayName.key? = some key) ∧
      (∀ key, ContractReport.filed? key report.rootStats =
        (report.roots.reverse.find? fun root => root.name.key? = key).map
          fun root => CallStats.ofRoots [root]) ∧
      ((report.rootStats.map Prod.snd).sum = report.stats ↔
        (functions.map fun function => function.displayName.key?).Nodup) := by
  obtain ⟨functions, selected, built⟩ := (reports_of_analyze isRead analyzed).roots
  have names := map_name_of_forall₂ built
  refine ⟨functions, selected, names, exists_key_of_roots selected,
    fun key => ContractReport.filed?_statsByName key report.roots, ?_⟩
  obtain ⟨same, -, fewer⟩ := ContractReport.sum_statsByName report.roots
  rw [keys_of_names names] at same fewer
  constructor
  · intro addsUp
    by_contra repeats
    exact Nat.ne_of_lt (fewer repeats) (congrArg CallStats.totalNodes addsUp)
  · exact same

/-! ### Two setters -/

/-- A node that neither calls nor refers to anything. -/
def isSilent (compilation : Compilation) (node : Node) : Bool :=
  node.kind ≠ .functionCall && (compilation.referenced? node).isNone

private theorem sitesAmong_of_silent (treeOptions : TreeOptions)
    (place : compilation.Place) {nodes : List Node}
    (silent : nodes.all compilation.isSilent = true) :
    compilation.sitesAmong treeOptions place [] [] nodes = [] := by
  induction nodes with
  | nil => rfl
  | cons node rest inductionHypothesis =>
      rw [List.all_cons, Bool.and_eq_true, isSilent, Bool.and_eq_true,
        decide_eq_true_iff, Option.isNone_iff_eq_none] at silent
      obtain ⟨⟨notCall, unlinked⟩, restSilent⟩ := silent
      have unnamed : unresolvedName node = .null := by
        rw [unresolvedName, decide_eq_false notCall]
        rfl
      rw [sitesAmong, lowLevelSite, if_neg notCall]
      dsimp only
      rw [unlinked]
      dsimp only
      rw [unnamed]
      exact inductionHypothesis restSilent

/-- What is evaluated of a contract. -/
structure Outlook where
  /-- The keys of the names of the roots, and whether all of these are functions
  over silent nodes. -/
  roots : Option (List (Option Json.Key) × Bool)
  laidOut : Bool
deriving DecidableEq

def outlook (compilation : Compilation) (contract : Node) : Outlook :=
  { roots :=
      (compilation.roots {} contract).toOption.map fun functions =>
        (functions.map fun function => function.displayName.key?,
          functions.all fun function => function.kind.isCallable &&
            (Node.preorderOfAll function.children).all compilation.isSilent)
    laidOut := (compilation.layout true contract).toOption.isSome }

private theorem exists_trees_of_silent {output : Json}
    (isRead : compilation.ReadFrom output) {contract : Node}
    {functions : List Node}
    (selected : compilation.roots options contract = .ok functions)
    (plain : ∀ function ∈ functions, (function.kind.isCallable &&
      (Node.preorderOfAll function.children).all compilation.isSilent) = true) :
    ∃ trees, List.Forall₂ (compilation.HasTree options) functions trees := by
  rcases forall₂_hasTree_or_failed (isRead.exists_standsAt_of_roots selected)
    with built | ⟨before, function, after, -, place, fault, rfl, -, stands, failed⟩
  · exact built
  · obtain ⟨callable, silent⟩ := Bool.and_eq_true_iff.1
      (plain function (List.mem_append_right before List.mem_cons_self))
    rw [← stands.2] at callable silent
    have siteless : compilation.sites options.trees place = [] := by
      rw [sites, Node.descendants, Node.visit_eq_preorderOfAll]
      exact sitesAmong_of_silent options.trees place silent
    obtain ⟨tree, grown⟩ :=
      exists_callTree_of_siteless options.trees callable siteless
    rw [failed] at grown
    cases grown

private theorem exists_report_of_outlook {output : Json}
    (isRead : compilation.ReadFrom output) {contract : Node}
    {names : List (Option Json.Key)}
    (shown : compilation.outlook contract = ⟨some (names, true), true⟩) :
    ∃ report, (compilation.analyze {} contract).outcome = .ok report ∧
      (report.roots.map fun root => root.name.key?) = names := by
  obtain ⟨ofRoots, laidOut⟩ := Outlook.mk.inj shown
  obtain ⟨functions, selected, rooted⟩ := Option.map_eq_some_iff.1 ofRoots
  obtain ⟨sameNames, plain⟩ := Prod.mk.inj rooted
  obtain ⟨found, succeeds⟩ := Option.isSome_iff_exists.1 laidOut
  obtain ⟨trees, built⟩ := exists_trees_of_silent isRead
    (eq_ok_of_toOption selected) (List.all_eq_true.1 plain)
  refine ⟨_, outcome_analyze_of_reports (reports_of_layout_ok
    (eq_ok_of_toOption selected) built (eq_ok_of_toOption succeeds)), ?_⟩
  exact (keys_of_names (map_name_of_forall₂ built)).trans sameNames

def setterObject (id : Int) (name type : String) : Json :=
  externalFunction id name (.str "nonpayable")
    [("parameters",
      nodeObject "ParameterList" (.int (id + 1))
        [("parameters",
          .arr [nodeObject "VariableDeclaration" (.int (id + 2))
            [typeEntry type]])])]

/-- A contract with two functions, of a number and of an address. -/
def setters (first second : String) : Json :=
  .obj
    [("a.sol",
        unitObject 1
          [plainContract 2 "Vault"
            [setterObject 3 first "uint256", setterObject 6 second "address"]])]

private theorem exists_report_of_setters (first second : String)
    (evaluated : (Reading.read (setters first second)).outcome.toOption.map
        (fun compilation =>
          (eligible {} compilation.units).map compilation.outlook) =
      some [⟨some ([some (.text first), some (.text second)], true), true⟩]) :
    ∃ (compilation : Compilation) (contract : Node) (report : ContractReport),
      compilation.ReadFrom (setters first second) ∧
      (compilation.analyze {} contract).outcome = .ok report ∧
      (report.roots.map fun root => root.name.key?) =
        [some (.text first), some (.text second)] := by
  obtain ⟨compilation, accepted, shown⟩ := Option.map_eq_some_iff.1 evaluated
  have isRead : compilation.ReadFrom (setters first second) :=
    ⟨compilation, eq_ok_of_toOption accepted, rfl⟩
  obtain ⟨contract, -, contractShown⟩ := List.map_eq_singleton_iff.1 shown
  obtain ⟨report, analyzed, names⟩ := exists_report_of_outlook isRead contractShown
  exact ⟨compilation, contract, report, isRead, analyzed, names⟩

theorem rootStats_of_setters :
    ∃ (compilation : Compilation) (contract : Node) (report : ContractReport),
      compilation.ReadFrom (setters "setLimit" "setOwner") ∧
      (compilation.analyze {} contract).outcome = .ok report ∧
      (report.roots.map fun root => root.name.key?) =
        [some (.text "setLimit"), some (.text "setOwner")] ∧
      (report.rootStats.map Prod.snd).sum = report.stats := by
  obtain ⟨compilation, contract, report, isRead, analyzed, keys⟩ :=
    exists_report_of_setters "setLimit" "setOwner" (by decide +kernel)
  obtain ⟨functions, -, names, -, -, addsUp⟩ :=
    rootStats_add_up_iff isRead {} contract analyzed
  refine ⟨compilation, contract, report, isRead, analyzed, keys, addsUp.2 ?_⟩
  rw [← keys_of_names names, keys]
  decide

/-- Overloads share a name, and only the later one is counted. -/
theorem rootStats_misses_overload :
    ∃ (compilation : Compilation) (contract : Node) (report : ContractReport),
      compilation.ReadFrom (setters "set" "set") ∧
      (compilation.analyze {} contract).outcome = .ok report ∧
      (report.roots.map fun root => root.name.key?) =
        [some (.text "set"), some (.text "set")] ∧
      (report.rootStats.map Prod.snd).sum ≠ report.stats := by
  obtain ⟨compilation, contract, report, isRead, analyzed, keys⟩ :=
    exists_report_of_setters "set" "set" (by decide +kernel)
  refine ⟨compilation, contract, report, isRead, analyzed, keys, ?_⟩
  intro addsUp
  have fewer := (ContractReport.sum_statsByName report.roots).2.2
  rw [keys] at fewer
  exact Nat.ne_of_lt (fewer (by decide)) (congrArg CallStats.totalNodes addsUp)

end Compilation

end ContractAtlas
