/-
Batch runs.

A batch run judges each eligible contract on its own and files the verdicts in
the order of the declarations.  Neither a split of the units nor a pool of
workers changes what is filed.
-/

import ContractAtlas.Proofs.Report.Verdict
import ContractAtlas.Report.Run

namespace ContractAtlas

/-! ### The run -/

namespace RunResult

/-- The results of the parts of a run, one after the other. -/
def ofParts (parts : List RunResult) : RunResult :=
  parts.foldr append empty

/-- Each list of the whole run is that of the first run and then that of the
second. -/
structure Joins (first second whole : RunResult) : Prop where
  succeeded :
    whole.summary.succeeded =
      first.summary.succeeded ++ second.summary.succeeded
  skipped :
    whole.summary.skipped = first.summary.skipped ++ second.summary.skipped
  failed :
    whole.summary.failed = first.summary.failed ++ second.summary.failed
  reports : whole.reports = first.reports ++ second.reports

theorem joins_append (first second : RunResult) :
    Joins first second (first.append second) :=
  ⟨rfl, rfl, rfl, rfl⟩

theorem empty_append (result : RunResult) : empty.append result = result :=
  rfl

theorem append_assoc (first second third : RunResult) :
    (first.append second).append third =
      first.append (second.append third) := by
  simp only [append, List.append_assoc]

theorem ofParts_append (left right : List RunResult) :
    ofParts (left ++ right) = (ofParts left).append (ofParts right) := by
  induction left with
  | nil => exact (empty_append (ofParts right)).symm
  | cons part rest inductionHypothesis =>
      have tails : ofParts (part :: (rest ++ right)) =
          part.append (ofParts (rest ++ right)) := rfl
      rw [List.cons_append, tails, inductionHypothesis, ← append_assoc]
      rfl

end RunResult

/-! ### A pool of workers -/

namespace Pool

variable {α β : Type}

/-- A task ends; what it returns is kept at the place of the task. -/
def finish (work : α → β) (tasks : List α) (results : List (Option β))
    (number : Nat) : List (Option β) :=
  results.set number (tasks[number]?.map work)

/-- The tasks end in some order. -/
def finishAll (work : α → β) (tasks : List α) (order : List Nat) :
    List (Option β) :=
  order.foldl (finish work tasks) (List.replicate tasks.length none)

private theorem length_foldl_finish (work : α → β) (tasks : List α)
    (order : List Nat) (results : List (Option β)) :
    (order.foldl (finish work tasks) results).length = results.length := by
  induction order generalizing results with
  | nil => rfl
  | cons number rest inductionHypothesis =>
      rw [List.foldl_cons, inductionHypothesis, finish, List.length_set]

private theorem getElem?_foldl_finish (work : α → β) (tasks : List α)
    {order : List Nat} {results : List (Option β)} {number : Nat}
    (inside : number < results.length)
    (ended : number ∈ order ∨ results[number]? = some (tasks[number]?.map work)) :
    (order.foldl (finish work tasks) results)[number]? =
      some (tasks[number]?.map work) := by
  induction order generalizing results with
  | nil => exact ended.resolve_left List.not_mem_nil
  | cons first rest inductionHypothesis =>
      rw [List.foldl_cons]
      apply inductionHypothesis
      · rw [finish, List.length_set]
        exact inside
      · by_cases same : first = number
        · right
          rw [finish, same, List.getElem?_set_self inside]
        · rw [finish, List.getElem?_set_ne same]
          rcases ended with member | already
          · left
            exact (List.mem_cons.1 member).resolve_left fun equal =>
              same equal.symm
          · exact Or.inr already

/-- In whatever order the tasks end, the results are in the order of the
tasks. -/
theorem finishAll_eq (work : α → β) (tasks : List α) {order : List Nat}
    (complete : ∀ number < tasks.length, number ∈ order) :
    finishAll work tasks order = tasks.map fun task => some (work task) := by
  apply List.ext_getElem?
  intro number
  by_cases inside : number < tasks.length
  · have replicated :
        number < (List.replicate tasks.length (none : Option β)).length := by
      rw [List.length_replicate]
      exact inside
    rw [finishAll, getElem?_foldl_finish work tasks replicated
      (Or.inl (complete number inside)), List.getElem?_map,
      List.getElem?_eq_getElem inside]
    rfl
  · rw [List.getElem?_eq_none, List.getElem?_eq_none]
    · rw [List.length_map]
      omega
    · rw [finishAll, length_foldl_finish, List.length_replicate]
      omega

end Pool

/-- The path of the unit starts with an ignored prefix. -/
def SourceUnit.isIgnored (options : AnalysisOptions) (unit : SourceUnit) :
    Bool :=
  match unit.root.textOr "absolutePath" "" with
  | .str path => options.ignorePrefixes.any fun start => path.startsWith start
  | _ => false

namespace Compilation

/-- The verdicts are filed one by one, each in one list. -/
structure FiledAs (compilation : Compilation)
    (judged : List (Node × Verdict)) (result : RunResult) : Prop where
  succeeded :
    result.summary.succeeded =
      (judged.filter fun entry => entry.2.report?.isSome).map
        fun entry => compilation.nameOf entry.1
  skipped :
    result.summary.skipped =
      (judged.filter fun entry => entry.2.isSkipped).map
        fun entry => compilation.nameOf entry.1
  failed :
    result.summary.failed =
      judged.filterMap fun entry =>
        entry.2.fault?.map fun fault =>
          (compilation.nameOf entry.1, .text fault.message)
  reports : result.reports = judged.filterMap fun entry => entry.2.report?

/-- The deployable contracts of the units that are not ignored. -/
def eligible (options : AnalysisOptions) (units : List SourceUnit) :
    List Node :=
  (units.filter fun unit => !unit.isIgnored options).flatMap fun unit =>
    unit.root.contracts.filter isDeployable

theorem eligible_cons (options : AnalysisOptions) (unit : SourceUnit)
    (rest : List SourceUnit) :
    eligible options (unit :: rest) =
      if unit.isIgnored options then eligible options rest
      else
        unit.root.contracts.filter isDeployable ++ eligible options rest := by
  rw [eligible, List.filter_cons]
  cases unit.isIgnored options with
  | true => rfl
  | false => rfl

private theorem eligibleContracts_eq (options : AnalysisOptions)
    {units : List SourceUnit}
    (textual : ∀ unit ∈ units,
      (unit.root.textOr "absolutePath" "").IsText) :
    eligibleContracts options units = .ok (eligible options units) := by
  induction units with
  | nil => rfl
  | cons unit rest inductionHypothesis =>
      obtain ⟨path, spelled⟩ := textual unit List.mem_cons_self
      have later := inductionHypothesis fun other member =>
        textual other (List.mem_cons_of_mem unit member)
      have decided : options.isIgnored (unit.root.textOr "absolutePath" "") =
          .ok (unit.isIgnored options) := by
        rw [AnalysisOptions.isIgnored, SourceUnit.isIgnored, spelled]
        rfl
      rw [eligibleContracts, decided, later, eligible_cons]
      cases unit.isIgnored options with
      | true => rfl
      | false => rfl

theorem eligible_append (options : AnalysisOptions)
    (left right : List SourceUnit) :
    eligible options (left ++ right) =
      eligible options left ++ eligible options right := by
  rw [eligible, List.filter_append, List.flatMap_append]
  rfl

section

variable (compilation : Compilation) (options : AnalysisOptions)

/-- What a batch run notes about one contract. -/
def partOf (contract : Node) : RunResult :=
  RunResult.ofOutcome (compilation.nameOf contract)
    (compilation.analyze options contract).outcome

/-- What is noted about contracts.  Several workers take several contracts at
once, which end in some order. -/
def partsOf (order : List Nat) (contracts : List Node) :
    List (Option RunResult) :=
  if 1 < options.workers ∧ 1 < contracts.length then
    Pool.finishAll (compilation.partOf options) contracts order
  else contracts.map fun contract => some (compilation.partOf options contract)

private theorem outcome_analyzeAll (contracts : List Node) :
    (compilation.analyzeAll options contracts).outcome =
      .ok (RunResult.ofParts (contracts.map (compilation.partOf options))) := by
  induction contracts with
  | nil => rfl
  | cons contract rest inductionHypothesis =>
      rw [analyzeAll, Journal.outcome_bind]
      show Journal.outcome (_ >>= _) = _
      rw [bind_pure_comp, Journal.outcome_map, inductionHypothesis]
      rfl

private theorem outcome_run (contracts : List Node) :
    (compilation.run options contracts).outcome =
      (compilation.analyzeAll options contracts).outcome := by
  rw [run, Journal.outcome_bind]
  cases (compilation.analyzeAll options contracts).outcome with
  | error fault => rfl
  | ok result => rfl

/-- The number of workers does not change what is noted. -/
theorem outcome_analyzeUnits (workers : Int) {units : List SourceUnit}
    (textual : ∀ unit ∈ units,
      (unit.root.textOr "absolutePath" "").IsText) :
    (compilation.analyzeUnits { options with workers := workers }
        units).outcome =
      .ok
        (RunResult.ofParts
          ((eligible options units).map (compilation.partOf options))) := by
  rw [analyzeUnits, Journal.outcome_bind, eligibleContracts_eq _ textual]
  show Journal.outcome (_ >>= _) = _
  rw [Journal.outcome_bind]
  show Journal.outcome (run _ _ _) = _
  rw [outcome_run, outcome_analyzeAll]
  rfl

private theorem partsOf_eq (workers : Int) {order : List Nat}
    {contracts : List Node}
    (complete : ∀ number < contracts.length, number ∈ order) :
    compilation.partsOf { options with workers := workers } order contracts =
      (contracts.map (compilation.partOf options)).map some := by
  rw [partsOf]
  split
  · rw [Pool.finishAll_eq _ _ complete, List.map_map]
    rfl
  · rw [List.map_map]
    rfl

end

section

variable {compilation : Compilation} {options : AnalysisOptions}

private theorem partOf_eq {contract : Node} {verdict : Verdict}
    (ends : compilation.EndsIn options contract verdict) :
    compilation.FiledAs [(contract, verdict)]
      (compilation.partOf options contract) := by
  rw [ends.eq_verdictOf, partOf]
  cases (compilation.analyze options contract).outcome with
  | error fault => exact ⟨rfl, rfl, rfl, rfl⟩
  | ok report =>
      rw [RunResult.ofOutcome, verdictOf]
      split
      · exact ⟨rfl, rfl, rfl, rfl⟩
      · exact ⟨rfl, rfl, rfl, rfl⟩

theorem FiledAs.append {left right : List (Node × Verdict)}
    {first second : RunResult} (filedLeft : compilation.FiledAs left first)
    (filedRight : compilation.FiledAs right second) :
    compilation.FiledAs (left ++ right) (first.append second) := by
  constructor
  case succeeded =>
    rw [List.filter_append, List.map_append, ← filedLeft.succeeded,
      ← filedRight.succeeded]
    rfl
  case skipped =>
    rw [List.filter_append, List.map_append, ← filedLeft.skipped,
      ← filedRight.skipped]
    rfl
  case failed =>
    rw [List.filterMap_append, ← filedLeft.failed, ← filedRight.failed]
    rfl
  case reports =>
    rw [List.filterMap_append, ← filedLeft.reports, ← filedRight.reports]
    rfl

/-- Contracts are judged one by one. -/
theorem exists_judged {output : Json} (isRead : compilation.ReadFrom output)
    (options : AnalysisOptions) (contracts : List Node) :
    ∃ judged : List (Node × Verdict),
      judged.map Prod.fst = contracts ∧
      (∀ entry ∈ judged, compilation.EndsIn options entry.1 entry.2) ∧
      compilation.FiledAs judged
        (RunResult.ofParts (contracts.map (compilation.partOf options))) := by
  induction contracts with
  | nil => exact ⟨[], rfl, nofun, rfl, rfl, rfl, rfl⟩
  | cons contract rest inductionHypothesis =>
      obtain ⟨verdict, ends⟩ := exists_endsIn isRead options contract
      obtain ⟨judged, listed, allEnd, filed⟩ := inductionHypothesis
      refine ⟨(contract, verdict) :: judged, ?_, ?_, ?_⟩
      · rw [List.map_cons, listed]
      · intro entry member
        rcases List.mem_cons.1 member with rfl | isLater
        · exact ends
        · exact allEnd entry isLater
      · exact (partOf_eq ends).append filed

private theorem FiledAs.map_name_reports {judged : List (Node × Verdict)}
    {result : RunResult} (filed : compilation.FiledAs judged result)
    (allEnd : ∀ entry ∈ judged, compilation.EndsIn options entry.1 entry.2) :
    result.reports.map ContractReport.name = result.summary.succeeded := by
  rw [filed.reports, filed.succeeded]
  clear filed
  induction judged with
  | nil => rfl
  | cons entry rest inductionHypothesis =>
      have later := inductionHypothesis fun other member =>
        allEnd other (List.mem_cons_of_mem entry member)
      obtain ⟨contract, verdict⟩ := entry
      have ends : compilation.EndsIn options contract verdict :=
        allEnd (contract, verdict) List.mem_cons_self
      cases ends with
      | failed raises => exact later
      | skipped reports rootless => exact later
      | succeeded reports rooted =>
          exact congrArg₂ List.cons reports.name later

end

/-- A batch run judges every eligible contract and files each verdict once, in
the order of the declarations.  The verdict on a contract depends on that
contract alone, the result for two lists of units is that for the one and then
that for the other, and neither the number of workers nor the order in which
their tasks end plays a part. -/
theorem analyzeUnits_isolates_failures {compilation : Compilation}
    {output : Json} (isRead : compilation.ReadFrom output)
    (options : AnalysisOptions) {units : List SourceUnit}
    (textual : ∀ unit ∈ units,
      (unit.root.textOr "absolutePath" "").IsText) :
    ∃ (judged : List (Node × Verdict)) (result : RunResult),
      judged.map Prod.fst = eligible options units ∧
      (∀ entry ∈ judged, ∀ verdict,
        compilation.EndsIn options entry.1 verdict ↔ verdict = entry.2) ∧
      compilation.FiledAs judged result ∧
      result.reports.map ContractReport.name = result.summary.succeeded ∧
      (∀ workers,
        (compilation.analyzeUnits { options with workers := workers }
            units).outcome = .ok result) ∧
      (∀ workers order, (∀ number < judged.length, number ∈ order) →
        ∃ parts,
          compilation.partsOf { options with workers := workers } order
              (eligible options units) = parts.map some ∧
            RunResult.ofParts parts = result) ∧
      ∀ left right, units = left ++ right → ∀ workers others,
        ∃ first second,
          (compilation.analyzeUnits { options with workers := workers }
              left).outcome = .ok first ∧
            (compilation.analyzeUnits { options with workers := others }
              right).outcome = .ok second ∧
            RunResult.Joins first second result := by
  obtain ⟨judged, listed, allEnd, filed⟩ :=
    exists_judged isRead options (eligible options units)
  have sameLength : judged.length = (eligible options units).length := by
    rw [← listed, List.length_map]
  refine ⟨judged, _, listed, ?_, filed, filed.map_name_reports allEnd, ?_, ?_,
    ?_⟩
  · intro entry member verdict
    constructor
    · intro ends
      rw [ends.eq_verdictOf, (allEnd entry member).eq_verdictOf]
    · rintro rfl
      exact allEnd entry member
  · intro workers
    exact compilation.outcome_analyzeUnits options workers textual
  · intro workers order complete
    rw [sameLength] at complete
    exact ⟨_, compilation.partsOf_eq options workers complete, rfl⟩
  · rintro left right rfl workers others
    refine ⟨_, _,
      compilation.outcome_analyzeUnits options workers fun unit member =>
        textual unit (List.mem_append_left right member),
      compilation.outcome_analyzeUnits options others fun unit member =>
        textual unit (List.mem_append_right left member), ?_⟩
    rw [eligible_append, List.map_append, RunResult.ofParts_append]
    exact RunResult.joins_append _ _

/-! ### A run with every verdict -/

theorem exists_callTree_of_siteless {compilation : Compilation}
    (options : TreeOptions) {place : compilation.Place}
    (callable : (compilation.node place).kind.isCallable = true)
    (siteless : compilation.sites options place = []) :
    ∃ tree, (compilation.callTree options place).outcome = .ok tree := by
  have opened : (compilation.expand options [place]
      (compilation.sites options place)).outcome = .ok [] := by
    rw [siteless]
    exact expand_eq_ok_iff.2 .nil
  exact ⟨_, callTree_eq_ok_iff.2 ⟨callable, [], opened, rfl⟩⟩

private theorem exists_callTree_of_childless {compilation : Compilation}
    (options : TreeOptions) {place : compilation.Place}
    (callable : (compilation.node place).kind.isCallable = true)
    (childless : (compilation.node place).children = []) :
    ∃ tree, (compilation.callTree options place).outcome = .ok tree := by
  refine exists_callTree_of_siteless options callable ?_
  rw [sites, Node.descendants, childless, Node.visit, sitesAmong]

/-- A contract without bases and with external functions. -/
def plainContract (id : Int) (name : String) (functions : List Json) : Json :=
  contractObject id [id] [("name", .str name), ("nodes", .arr functions)]

def externalFunction (id : Int) (name : String) (mutability : Json)
    (attributes : List (String × Json)) : Json :=
  nodeObject "FunctionDefinition" (.int id)
    ([("name", .str name), ("visibility", .str "external"),
      ("stateMutability", mutability), ("implemented", .bool true)] ++
        attributes)

/-- The function of the second contract has no signature, and the third
contract has no function. -/
def threeContracts : Json :=
  .obj
    [("a.sol",
        unitObject 1
          [plainContract 2 "Vault"
              [externalFunction 3 "poke" (.str "payable") []],
            plainContract 4 "Broken" [externalFunction 5 "poke" (.arr []) []],
            plainContract 6 "Empty" []])]

/-- What is evaluated of a contract. -/
structure Traits where
  name : Option Json.Key
  /-- For each root, whether it is callable and whether it has no children. -/
  roots : Option (List (Bool × Bool))
  laidOut : Bool
deriving DecidableEq

def traits (compilation : Compilation) (contract : Node) : Traits :=
  { name := contract.name.key?
    roots :=
      (compilation.roots {} contract).toOption.map fun functions =>
        functions.map fun function =>
          (function.kind.isCallable, function.children.isEmpty)
    laidOut := (compilation.layout true contract).toOption.isSome }

section

variable {compilation : Compilation} {contract : Node} {name : Option Json.Key}

private theorem exists_layout_of_traits
    {roots : Option (List (Bool × Bool))}
    (shown : compilation.traits contract = ⟨name, roots, true⟩) :
    ∃ found, compilation.layout true contract = .ok found := by
  have laidOut : (compilation.layout true contract).toOption.isSome = true :=
    congrArg Traits.laidOut shown
  cases ends : compilation.layout true contract with
  | ok found => exact ⟨found, rfl⟩
  | error fault =>
      rw [ends] at laidOut
      cases laidOut

private theorem endsIn_failed_of_traits
    (shown : compilation.traits contract = ⟨name, none, true⟩) :
    ∃ fault, compilation.EndsIn {} contract (.failed fault) := by
  have unselected := congrArg Traits.roots shown
  cases selected : compilation.roots {} contract with
  | error fault => exact ⟨fault, .failed (.roots selected)⟩
  | ok functions =>
      rw [traits, selected] at unselected
      cases unselected

private theorem endsIn_skipped_of_traits
    (shown : compilation.traits contract = ⟨name, some [], true⟩) :
    compilation.EndsIn {} contract .skipped := by
  obtain ⟨found, laidOut⟩ := exists_layout_of_traits shown
  have rootless := congrArg Traits.roots shown
  cases selected : compilation.roots {} contract with
  | error fault =>
      rw [traits, selected] at rootless
      cases rootless
  | ok functions =>
      rw [traits, selected] at rootless
      have empty : functions = [] := List.map_eq_nil_iff.1
        (Option.some.inj rootless)
      subst empty
      exact .skipped (reports_of_layout_ok selected .nil laidOut) selected

private theorem endsIn_succeeded_of_traits {output : Json}
    (isRead : compilation.ReadFrom output)
    (shown : compilation.traits contract = ⟨name, some [(true, true)], true⟩) :
    ∃ report, compilation.EndsIn {} contract (.succeeded report) := by
  obtain ⟨found, laidOut⟩ := exists_layout_of_traits shown
  have rooted := congrArg Traits.roots shown
  cases selected : compilation.roots {} contract with
  | error fault =>
      rw [traits, selected] at rooted
      cases rooted
  | ok functions =>
      rw [traits, selected] at rooted
      obtain ⟨function, rfl, traitsOfRoot⟩ :=
        List.map_eq_singleton_iff.1 (Option.some.inj rooted)
      obtain ⟨callable, childless⟩ := Prod.mk.inj traitsOfRoot
      obtain ⟨place, samePosition, sameNode⟩ :=
        isRead.exists_standsAt_of_roots selected function List.mem_cons_self
      have isCallable : (compilation.node place).kind.isCallable = true := by
        rw [sameNode]
        exact callable
      have noChildren : (compilation.node place).children = [] := by
        rw [sameNode]
        exact List.isEmpty_iff.1 childless
      obtain ⟨tree, grown⟩ :=
        exists_callTree_of_childless (AnalysisOptions.trees {}) isCallable
          noChildren
      have hasTree : compilation.HasTree {} function tree :=
        ⟨place, ⟨samePosition, sameNode⟩, grown⟩
      refine ⟨_, .succeeded
        (reports_of_layout_ok selected (.cons hasTree .nil) laidOut) ?_⟩
      rw [selected]
      intro same
      cases same

end

private theorem isText_of_shape {value : Json} (shape : value.shape = .str) :
    value.IsText := by
  cases value with
  | str text => exact ⟨text, rfl⟩
  | null | bool | int | real | arr | obj => cases shape

theorem threeContracts_isolates_failures :
    ∃ (compilation : Compilation) (result : RunResult),
      compilation.ReadFrom threeContracts ∧
      (∀ unit ∈ compilation.units,
        (unit.root.textOr "absolutePath" "").IsText) ∧
      (compilation.analyzeUnits {} compilation.units).outcome = .ok result ∧
      result.summary.succeeded.map (fun name => name.value.key?) =
        [some (.text "Vault")] ∧
      result.summary.failed.map (fun entry => entry.1.value.key?) =
        [some (.text "Broken")] ∧
      result.summary.skipped.map (fun name => name.value.key?) =
        [some (.text "Empty")] := by
  have evaluated : (Reading.read threeContracts).outcome.toOption.map
      (fun compilation =>
        (compilation.units.map fun unit =>
            (unit.root.textOr "absolutePath" "").shape,
          (eligible {} compilation.units).map compilation.traits)) =
      some
        ([.str],
          [⟨some (.text "Vault"), some [(true, true)], true⟩,
            ⟨some (.text "Broken"), none, true⟩,
            ⟨some (.text "Empty"), some [], true⟩]) := by
    decide +kernel
  cases accepted : (Reading.read threeContracts).outcome with
  | error fault =>
      rw [accepted] at evaluated
      cases evaluated
  | ok compilation =>
      rw [accepted] at evaluated
      obtain ⟨shapes, shown⟩ := Prod.mk.inj (Option.some.inj evaluated)
      have isRead : compilation.ReadFrom threeContracts :=
        ⟨compilation, accepted, rfl⟩
      have textual : ∀ unit ∈ compilation.units,
          (unit.root.textOr "absolutePath" "").IsText := by
        intro unit member
        obtain ⟨only, same, shape⟩ := List.map_eq_singleton_iff.1 shapes
        rw [same, List.mem_singleton] at member
        rw [member]
        exact isText_of_shape shape
      obtain ⟨judged, result, listed, decided, filed, -, ran, -⟩ :=
        analyzeUnits_isolates_failures isRead {} textual
      rw [← listed, List.map_map] at shown
      obtain ⟨⟨vault, first⟩, rest, rfl, vaultShown, shown⟩ :=
        List.map_eq_cons_iff.1 shown
      obtain ⟨⟨broken, second⟩, rest, rfl, brokenShown, shown⟩ :=
        List.map_eq_cons_iff.1 shown
      obtain ⟨⟨bare, third⟩, rfl, bareShown⟩ :=
        List.map_eq_singleton_iff.1 shown
      obtain ⟨report, succeeds⟩ := endsIn_succeeded_of_traits isRead vaultShown
      obtain ⟨fault, fails⟩ := endsIn_failed_of_traits brokenShown
      have skips := endsIn_skipped_of_traits bareShown
      have firstSame := (decided _ (by simp) _).1 succeeds
      have secondSame := (decided _ (by simp) _).1 fails
      have thirdSame := (decided _ (by simp) _).1 skips
      dsimp only at firstSame secondSame thirdSame
      subst firstSame secondSame thirdSame
      refine ⟨compilation, result, isRead, textual, ran 1, ?_, ?_, ?_⟩
      · rw [filed.succeeded]
        exact congrArg (fun key => [key]) (congrArg Traits.name vaultShown)
      · rw [filed.failed]
        exact congrArg (fun key => [key]) (congrArg Traits.name brokenShown)
      · rw [filed.skipped]
        exact congrArg (fun key => [key]) (congrArg Traits.name bareShown)

end Compilation

end ContractAtlas
