/-
The verdict on one contract.

It is stated without the analysis: which part of a contract raises a fault,
what its report holds, and when it is passed over.  In a compilation that was
read every contract has exactly one verdict, the one that its analysis ends
with.
-/

import ContractAtlas.Proofs.Call.Expansion
import ContractAtlas.Proofs.Source.Resolution
import ContractAtlas.Report.Contract

namespace ContractAtlas

/-! ### Functions of a compilation that was read -/

namespace Compilation

/-- The compilation was read from compiler output.  The path that it is noted
to come from may have been set later. -/
def ReadFrom (compilation : Compilation) (output : Json) : Prop :=
  ∃ found, (Reading.read output).outcome = .ok found ∧
    compilation = { found with source := compilation.source }

/-- The function stands at the place. -/
def StandsAt (compilation : Compilation) (function : Node)
    (place : compilation.Place) : Prop :=
  place.val = function.info.position ∧ compilation.node place = function

private theorem place?_of_standsAt {compilation : Compilation} {function : Node}
    {place : compilation.Place} (stands : compilation.StandsAt function place) :
    compilation.place? function.info.position = some place := by
  obtain ⟨samePosition, -⟩ := stands
  rw [place?, ← samePosition, dif_pos place.isLt]

private theorem exists_standsAt_of_nodeAt? {compilation : Compilation}
    {function : Node}
    (found :
      compilation.nodeAt? function.info.position = some function) :
    ∃ place, compilation.StandsAt function place := by
  obtain ⟨inside, same⟩ := Array.getElem?_eq_some_iff.1 found
  exact ⟨⟨function.info.position, inside⟩, rfl, same⟩

theorem ReadFrom.nodeAt?_child {compilation : Compilation} {output : Json}
    (isRead : compilation.ReadFrom output) {position : Nat} {node child : Node}
    (found : compilation.nodeAt? position = some node)
    (isChild : child ∈ node.children) :
    compilation.nodeAt? child.info.position = some child := by
  obtain ⟨original, accepted, same⟩ := isRead
  obtain ⟨units, built⟩ := Reading.exists_ofUnits_of_read accepted
  rw [same] at found ⊢
  exact (linkedFrom_of_ofUnits built).nodeAt?_child found isChild

private theorem ReadFrom.exists_standsAt {compilation : Compilation}
    {output : Json}
    (isRead : compilation.ReadFrom output) {options : AnalysisOptions}
    {contract function : Node}
    (member : function ∈ compilation.rootCandidates options contract) :
    ∃ place, compilation.StandsAt function place := by
  obtain ⟨base, isBase, declared⟩ := List.mem_flatMap.1 member
  obtain ⟨position, -, found⟩ := List.mem_filterMap.1 isBase
  have isChild : function ∈ base.children := by
    have isMember := (List.mem_filter.1 declared).1
    rw [Node.membersOfKind, Node.fieldsOfKind, Node.fieldList] at isMember
    exact (List.mem_filter.1 (List.mem_filter.1 isMember).1).1
  exact exists_standsAt_of_nodeAt? (isRead.nodeAt?_child found isChild)

/-- The first of some functions has a signature; it is passed over if the
signature was met. -/
theorem exists_signature_of_cons {seen : List SignatureKey} {function : Node}
    {rest chosen : List Node}
    (selected : firstOfEachSignature seen (function :: rest) = .ok chosen) :
    ∃ signature key, Signature.ofFunction function = .ok signature ∧
      signature.key = .ok key ∧
      (firstOfEachSignature seen rest = .ok chosen ∨
        ∃ others, firstOfEachSignature (key :: seen) rest = .ok others ∧
          chosen = function :: others) := by
  rw [firstOfEachSignature] at selected
  split at selected
  · cases selected
  · next signature signed =>
      split at selected
      · cases selected
      · next key keyed =>
          refine ⟨signature, key, signed, keyed, ?_⟩
          split at selected
          · exact Or.inl selected
          · split at selected
            · cases selected
            · next others later =>
                cases selected
                exact Or.inr ⟨others, later, rfl⟩

/-- A function that is chosen is one of those that are offered, and it has a
signature. -/
theorem mem_of_firstOfEachSignature {seen : List SignatureKey}
    {functions chosen : List Node}
    (selected : firstOfEachSignature seen functions = .ok chosen)
    {function : Node} (member : function ∈ chosen) :
    function ∈ functions ∧
      ∃ signature key, Signature.ofFunction function = .ok signature ∧
        signature.key = .ok key := by
  induction functions generalizing seen chosen with
  | nil =>
      cases selected
      cases member
  | cons first rest inductionHypothesis =>
      obtain ⟨signature, key, signed, keyed, passed | ⟨others, later, rfl⟩⟩ :=
        exists_signature_of_cons selected
      · have found := inductionHypothesis passed member
        exact ⟨List.mem_cons_of_mem first found.1, found.2⟩
      · rcases List.mem_cons.1 member with rfl | isLater
        · exact ⟨List.mem_cons_self, signature, key, signed, keyed⟩
        · have found := inductionHypothesis later isLater
          exact ⟨List.mem_cons_of_mem first found.1, found.2⟩

theorem ReadFrom.exists_standsAt_of_roots {compilation : Compilation}
    {output : Json} (isRead : compilation.ReadFrom output)
    {options : AnalysisOptions} {contract : Node} {functions : List Node}
    (selected : compilation.roots options contract = .ok functions) :
    ∀ function ∈ functions,
      ∃ place, compilation.StandsAt function place := by
  intro function member
  exact isRead.exists_standsAt (mem_of_firstOfEachSignature selected member).1

end Compilation

/-! ### The verdict on a contract -/

/-- A fault of sizing or packing, which only costs a report its layout. -/
inductive Fault.PreventsLayout : Fault → Prop
  | unknownType (type : String) (member : Datum) :
      PreventsLayout (.unknownType type member)
  | structNotFlattened (type : String) :
      PreventsLayout (.structNotFlattened type)
  | invalidSize (name : Json) (type : String) (size : Json) :
      PreventsLayout (.invalidSize name type size)
  | structUnresolved (name : Json) (type : String) :
      PreventsLayout (.structUnresolved name type)
  | structRecursive (name : Json) : PreventsLayout (.structRecursive name)

inductive Verdict where
  | succeeded (report : ContractReport)
  | skipped
  | failed (fault : Fault)

namespace Verdict

def report? : Verdict → Option ContractReport
  | succeeded report => some report
  | _ => none

def isSkipped : Verdict → Bool
  | skipped => true
  | _ => false

def fault? : Verdict → Option Fault
  | failed fault => some fault
  | _ => none

end Verdict

namespace Compilation

section

variable (compilation : Compilation) (options : AnalysisOptions)

/-- The call tree of a function. -/
def HasTree (function : Node) (tree : CallNode) : Prop :=
  ∃ place, compilation.StandsAt function place ∧
    (compilation.callTree options.trees place).outcome = .ok tree

/-- A fault that ends the analysis of a contract. -/
inductive Raises (contract : Node) : Fault → Prop
  /-- The roots cannot be selected. -/
  | roots {fault : Fault}
      (failed : compilation.roots options contract = .error fault) :
      Raises contract fault
  /-- The tree of a root cannot be built, those before it can. -/
  | tree {before after : List Node} {function : Node} {trees : List CallNode}
      {place : compilation.Place} {fault : Fault}
      (selected :
        compilation.roots options contract =
          .ok (before ++ function :: after))
      (earlier :
        List.Forall₂ (compilation.HasTree options) before trees)
      (stands : compilation.StandsAt function place)
      (failed :
        (compilation.callTree options.trees place).outcome = .error fault) :
      Raises contract fault
  /-- The layout raises something other than a diagnostic. -/
  | layout {functions : List Node} {trees : List CallNode} {fault : Fault}
      (selected : compilation.roots options contract = .ok functions)
      (built : List.Forall₂ (compilation.HasTree options) functions trees)
      (failed : compilation.layout true contract = .error fault)
      (severe : ¬ fault.PreventsLayout) :
      Raises contract fault

/-- What the report on a contract holds.  Whether there is a layout changes
neither the trees nor the elements. -/
structure Reports (contract : Node) (report : ContractReport) : Prop where
  name : report.name = compilation.nameOf contract
  path : report.path = compilation.pathDatum contract
  roots : ∃ functions, compilation.roots options contract = .ok functions ∧
    List.Forall₂ (compilation.HasTree options) functions report.roots
  elements : report.elements = compilation.elements contract
  layout :
    (∃ found, compilation.layout true contract = .ok found ∧
        report.layout = some found ∧ report.layoutError = .null) ∨
      ∃ fault, compilation.layout true contract = .error fault ∧
        fault.PreventsLayout ∧ report.layout = none ∧
        report.layoutError = layoutDiagnostic fault

inductive EndsIn (contract : Node) : Verdict → Prop
  | failed {fault : Fault}
      (raises : compilation.Raises options contract fault) :
      EndsIn contract (.failed fault)
  | skipped {report : ContractReport}
      (reports : compilation.Reports options contract report)
      (rootless : compilation.roots options contract = .ok []) :
      EndsIn contract .skipped
  | succeeded {report : ContractReport}
      (reports : compilation.Reports options contract report)
      (rooted : compilation.roots options contract ≠ .ok []) :
      EndsIn contract (.succeeded report)

end

/-! ### The analysis of one contract -/

private theorem isLayoutDiagnostic_iff {fault : Fault} :
    isLayoutDiagnostic fault = true ↔ fault.PreventsLayout := by
  constructor
  · intro diagnostic
    cases fault <;> first | constructor | cases diagnostic
  · intro prevents
    cases prevents <;> rfl

section

variable {compilation : Compilation} {options : AnalysisOptions}

private theorem treesOf_cons_of_standsAt {function : Node} {rest : List Node}
    {place : compilation.Place} (stands : compilation.StandsAt function place) :
    (compilation.treesOf options.trees (function :: rest)).outcome =
      (compilation.callTree options.trees place).outcome.bind fun tree =>
        (compilation.treesOf options.trees rest).outcome.map (tree :: ·) := by
  rw [treesOf, place?_of_standsAt stands, Journal.outcome_bind]
  congr 1
  funext tree
  rw [bind_pure_comp, Journal.outcome_map]

private theorem treesOf_of_forall₂ {functions : List Node}
    {trees : List CallNode}
    (built : List.Forall₂ (compilation.HasTree options) functions trees) :
    (compilation.treesOf options.trees functions).outcome = .ok trees := by
  induction built with
  | nil => rfl
  | cons grown later inductionHypothesis =>
      obtain ⟨place, stands, grows⟩ := grown
      rw [treesOf_cons_of_standsAt stands, grows, inductionHypothesis]
      rfl

private theorem treesOf_of_failed {before after : List Node} {function : Node}
    {trees : List CallNode} {place : compilation.Place} {fault : Fault}
    (earlier : List.Forall₂ (compilation.HasTree options) before trees)
    (stands : compilation.StandsAt function place)
    (failed :
      (compilation.callTree options.trees place).outcome = .error fault) :
    (compilation.treesOf options.trees (before ++ function :: after)).outcome =
      .error fault := by
  induction earlier with
  | nil =>
      rw [List.nil_append, treesOf_cons_of_standsAt stands, failed]
      rfl
  | cons grown later inductionHypothesis =>
      obtain ⟨above, standsAbove, grows⟩ := grown
      rw [List.cons_append, treesOf_cons_of_standsAt standsAbove, grows,
        inductionHypothesis]
      rfl

/-- Either all functions have trees, or there is a first one without. -/
theorem forall₂_hasTree_or_failed {functions : List Node}
    (placed : ∀ function ∈ functions,
      ∃ place, compilation.StandsAt function place) :
    (∃ trees, List.Forall₂ (compilation.HasTree options) functions trees) ∨
      ∃ before function after trees place fault,
        functions = before ++ function :: after ∧
        List.Forall₂ (compilation.HasTree options) before trees ∧
        compilation.StandsAt function place ∧
        (compilation.callTree options.trees place).outcome = .error fault := by
  induction functions with
  | nil => exact Or.inl ⟨[], .nil⟩
  | cons first rest inductionHypothesis =>
      obtain ⟨place, stands⟩ := placed first List.mem_cons_self
      cases grown : (compilation.callTree options.trees place).outcome with
      | error fault =>
          exact Or.inr ⟨[], first, rest, [], place, fault, rfl, .nil, stands,
            grown⟩
      | ok tree =>
          have hasTree : compilation.HasTree options first tree :=
            ⟨place, stands, grown⟩
          rcases inductionHypothesis fun function member =>
              placed function (List.mem_cons_of_mem first member) with
            ⟨trees, built⟩ |
            ⟨before, function, after, trees, other, fault, rfl, earlier,
              standsLater, failed⟩
          · exact Or.inl ⟨tree :: trees, .cons hasTree built⟩
          · exact Or.inr ⟨first :: before, function, after, tree :: trees,
              other, fault, rfl, .cons hasTree earlier, standsLater, failed⟩

private theorem outcome_callTrees (contract : Node) :
    (compilation.callTrees options contract).outcome =
      (compilation.roots options contract).bind fun functions =>
        (compilation.treesOf options.trees functions).outcome := by
  rw [callTrees, Journal.outcome_bind]
  rfl

/-- The report on a contract whose layout is left out. -/
def bareReport (compilation : Compilation) (contract : Node)
    (trees : List CallNode) : ContractReport :=
  { name := compilation.nameOf contract
    path := compilation.pathDatum contract
    roots := trees
    elements := compilation.elements contract }

private theorem outcome_analyze_of_layout_ok {contract : Node}
    {trees : List CallNode} {found : Layout}
    (grown : (compilation.callTrees options contract).outcome = .ok trees)
    (laidOut : compilation.layout true contract = .ok found) :
    (compilation.analyze options contract).outcome =
      .ok { compilation.bareReport contract trees with layout := some found } := by
  rw [analyze, Journal.outcome_bind, grown]
  show Journal.outcome (_ >>= _) = _
  rw [Journal.outcome_bind]
  show Journal.outcome _ = _
  rw [outcome_layoutNoted, laidOut]
  rfl

private theorem outcome_analyze_of_layout_error {contract : Node}
    {trees : List CallNode} {fault : Fault}
    (grown : (compilation.callTrees options contract).outcome = .ok trees)
    (failed : compilation.layout true contract = .error fault) :
    (compilation.analyze options contract).outcome =
      if isLayoutDiagnostic fault then
        .ok
          { compilation.bareReport contract trees with
            layoutError := layoutDiagnostic fault }
      else .error fault := by
  rw [analyze, Journal.outcome_bind, grown]
  show Journal.outcome (_ >>= _) = _
  rw [Journal.outcome_bind]
  show Journal.outcome _ = _
  rw [outcome_layoutNoted, failed]
  dsimp only
  split
  · rfl
  · rfl

private theorem outcome_analyze_of_callTrees_error {contract : Node}
    {fault : Fault}
    (failed : (compilation.callTrees options contract).outcome = .error fault) :
    (compilation.analyze options contract).outcome = .error fault := by
  rw [analyze, Journal.outcome_bind, failed]
  rfl

private theorem outcome_callTrees_of_built {contract : Node}
    {functions : List Node}
    {trees : List CallNode}
    (selected : compilation.roots options contract = .ok functions)
    (built : List.Forall₂ (compilation.HasTree options) functions trees) :
    (compilation.callTrees options contract).outcome = .ok trees := by
  rw [outcome_callTrees, selected]
  exact treesOf_of_forall₂ built

theorem outcome_analyze_of_reports {contract : Node} {report : ContractReport}
    (reports : compilation.Reports options contract report) :
    (compilation.analyze options contract).outcome = .ok report := by
  obtain ⟨sameName, samePath, ⟨functions, selected, built⟩, sameElements,
    laidOut⟩ := reports
  have grown := outcome_callTrees_of_built selected built
  rcases laidOut with ⟨found, succeeds, hasLayout, noError⟩ |
    ⟨fault, fails, prevents, noLayout, hasError⟩
  · rw [outcome_analyze_of_layout_ok grown succeeds, bareReport, ← sameName,
      ← samePath, ← sameElements, ← hasLayout, ← noError]
  · rw [outcome_analyze_of_layout_error grown fails,
      if_pos (isLayoutDiagnostic_iff.2 prevents), bareReport, ← sameName,
      ← samePath, ← sameElements, ← noLayout, ← hasError]

theorem outcome_analyze_of_raises {contract : Node} {fault : Fault}
    (raises : compilation.Raises options contract fault) :
    (compilation.analyze options contract).outcome = .error fault := by
  cases raises with
  | roots failed =>
      apply outcome_analyze_of_callTrees_error
      rw [outcome_callTrees, failed]
      rfl
  | tree selected earlier stands failed =>
      apply outcome_analyze_of_callTrees_error
      rw [outcome_callTrees, selected]
      exact treesOf_of_failed earlier stands failed
  | layout selected built failed severe =>
      rw [outcome_analyze_of_layout_error
        (outcome_callTrees_of_built selected built) failed, if_neg]
      rw [isLayoutDiagnostic_iff]
      exact severe

theorem reports_of_layout_ok {contract : Node} {functions : List Node}
    {trees : List CallNode} {found : Layout}
    (selected : compilation.roots options contract = .ok functions)
    (built : List.Forall₂ (compilation.HasTree options) functions trees)
    (laidOut : compilation.layout true contract = .ok found) :
    compilation.Reports options contract
      { compilation.bareReport contract trees with layout := some found } :=
  ⟨rfl, rfl, ⟨functions, selected, built⟩, rfl,
    Or.inl ⟨found, laidOut, rfl, rfl⟩⟩

private theorem reports_of_preventsLayout {contract : Node}
    {functions : List Node}
    {trees : List CallNode} {fault : Fault}
    (selected : compilation.roots options contract = .ok functions)
    (built : List.Forall₂ (compilation.HasTree options) functions trees)
    (failed : compilation.layout true contract = .error fault)
    (prevents : fault.PreventsLayout) :
    compilation.Reports options contract
      { compilation.bareReport contract trees with
        layoutError := layoutDiagnostic fault } :=
  ⟨rfl, rfl, ⟨functions, selected, built⟩, rfl,
    Or.inr ⟨fault, failed, prevents, rfl, rfl⟩⟩

theorem exists_reports_or_raises {output : Json}
    (isRead : compilation.ReadFrom output) (options : AnalysisOptions)
    (contract : Node) :
    (∃ report, compilation.Reports options contract report) ∨
      ∃ fault, compilation.Raises options contract fault := by
  cases selected : compilation.roots options contract with
  | error fault => exact Or.inr ⟨fault, .roots selected⟩
  | ok functions =>
      rcases forall₂_hasTree_or_failed
          (isRead.exists_standsAt_of_roots selected) with
        ⟨trees, built⟩ |
        ⟨before, function, after, trees, place, fault, rfl, earlier, stands,
          failed⟩
      · cases laidOut : compilation.layout true contract with
        | ok found =>
            exact Or.inl ⟨_, reports_of_layout_ok selected built laidOut⟩
        | error fault =>
            by_cases prevents : fault.PreventsLayout
            · exact Or.inl
                ⟨_, reports_of_preventsLayout selected built laidOut prevents⟩
            · exact Or.inr ⟨fault, .layout selected built laidOut prevents⟩
      · exact Or.inr ⟨fault, .tree selected earlier stands failed⟩

private theorem Reports.roots_eq_nil_iff {contract : Node}
    {report : ContractReport}
    (reports : compilation.Reports options contract report) :
    report.roots = [] ↔ compilation.roots options contract = .ok [] := by
  obtain ⟨functions, selected, built⟩ := reports.roots
  have sameLength := built.length_eq
  rw [selected]
  constructor
  · intro rootless
    rw [rootless] at sameLength
    rw [List.eq_nil_of_length_eq_zero sameLength]
  · intro same
    cases same
    exact List.eq_nil_of_length_eq_zero sameLength.symm

theorem exists_endsIn {output : Json} (isRead : compilation.ReadFrom output)
    (options : AnalysisOptions) (contract : Node) :
    ∃ verdict, compilation.EndsIn options contract verdict := by
  rcases exists_reports_or_raises isRead options contract with
    ⟨report, reports⟩ | ⟨fault, raises⟩
  · by_cases rootless : compilation.roots options contract = .ok []
    · exact ⟨.skipped, .skipped reports rootless⟩
    · exact ⟨.succeeded report, .succeeded reports rootless⟩
  · exact ⟨.failed fault, .failed raises⟩

/-- The verdict that the outcome of an analysis stands for. -/
def verdictOf : Except Fault ContractReport → Verdict
  | .error fault => .failed fault
  | .ok report =>
      if report.roots.isEmpty then .skipped else .succeeded report

theorem EndsIn.eq_verdictOf {contract : Node} {verdict : Verdict}
    (ends : compilation.EndsIn options contract verdict) :
    verdict = verdictOf (compilation.analyze options contract).outcome := by
  cases ends with
  | failed raises =>
      rw [outcome_analyze_of_raises raises]
      rfl
  | skipped reports rootless =>
      have empty := reports.roots_eq_nil_iff.2 rootless
      rw [outcome_analyze_of_reports reports, verdictOf, empty]
      rfl
  | succeeded reports rooted =>
      have nonempty := mt reports.roots_eq_nil_iff.1 rooted
      rw [outcome_analyze_of_reports reports, verdictOf, if_neg]
      rw [List.isEmpty_iff]
      exact nonempty

end

end Compilation

end ContractAtlas
