/-
The functions from which call trees are grown.

A function of a contract or of one of its bases qualifies if it is implemented,
can be called from outside and is not the constructor of another contract.  Of
the qualifying functions with one signature, the first is a root: the one in the
most derived contract that has any.  A signature tells whether a function may
change the state, so it makes no difference whether the functions that may not
are left out before or after the repeated signatures.
-/

import ContractAtlas.Report.Roots
import ContractAtlas.Proofs.Call.Textual

namespace ContractAtlas

/-! ### The first value of each key -/

section FirstOfEachKey

variable {α κ : Type} [DecidableEq κ] (key : α → κ)

/-- The indices of the values that have no earlier value of the same key. -/
def firstIndices (values : List α) : List (Fin values.length) :=
  (List.finRange values.length).filter fun index =>
    ∀ earlier < index, key (values.get earlier) ≠ key (values.get index)

/-- The values of new keys, each key once. -/
def firstOfEachKey (seen : List κ) : List α → List α
  | [] => []
  | value :: rest =>
      if key value ∈ seen then firstOfEachKey seen rest
      else value :: firstOfEachKey (key value :: seen) rest

private theorem mem_firstIndices {values : List α} {index : Fin values.length} :
    index ∈ firstIndices key values ↔
      ∀ earlier < index, key (values.get earlier) ≠ key (values.get index) := by
  rw [firstIndices, List.mem_filter, decide_eq_true_iff]
  exact and_iff_right (List.mem_finRange index)

theorem firstIndices_cons (value : α) (rest : List α) :
    firstIndices key (value :: rest) =
      0 :: ((firstIndices key rest).filter fun index =>
        key value ≠ key (rest.get index)).map Fin.succ := by
  have isFirst : ∀ index : Fin rest.length,
      (∀ earlier < index.succ,
        key ((value :: rest).get earlier) ≠
          key ((value :: rest).get index.succ)) ↔
      key value ≠ key (rest.get index) ∧
        ∀ earlier < index,
          key (rest.get earlier) ≠ key (rest.get index) := by
    intro index
    rw [Fin.forall_fin_succ]
    simp only [Fin.succ_lt_succ_iff, Fin.succ_pos, List.get_cons_succ', true_imp_iff]
    rfl
  have started : ∀ earlier : Fin (value :: rest).length, earlier < 0 →
      key ((value :: rest).get earlier) ≠ key ((value :: rest).get 0) := by
    intro earlier before
    exact absurd before (Fin.not_lt_zero earlier)
  rw [firstIndices, firstIndices, List.filter_filter]
  show List.filter _ (List.finRange (rest.length + 1)) = _
  rw [List.finRange_succ,
    List.filter_cons_of_pos (by exact decide_eq_true started), List.filter_map]
  congr 2
  apply List.filter_congr
  intro index _
  rw [Bool.eq_iff_iff]
  simp only [Function.comp_apply, Bool.and_eq_true, decide_eq_true_iff]
  exact isFirst index

private theorem firstOfEachKey_eq (seen : List κ) (values : List α) :
    firstOfEachKey key seen values =
      ((firstIndices key values).filter fun index =>
        key (values.get index) ∉ seen).map values.get := by
  induction values generalizing seen with
  | nil => rfl
  | cons value rest inductionHypothesis =>
      rw [firstOfEachKey, firstIndices_cons]
      split
      · next met =>
          rw [inductionHypothesis, List.filter_cons_of_neg (by simp [met]),
            List.filter_map, List.map_map, List.filter_filter]
          congr 1
          apply List.filter_congr
          intro index _
          rw [Bool.eq_iff_iff]
          simp only [Function.comp_apply, List.get_cons_succ',
            Bool.and_eq_true, decide_eq_true_iff]
          constructor
          · intro fresh
            refine ⟨fresh, ?_⟩
            intro same
            exact fresh (same ▸ met)
          · intro fresh
            exact fresh.1
      · next fresh =>
          rw [inductionHypothesis, List.filter_cons_of_pos (by simp [fresh]),
            List.filter_map, List.map_cons, List.map_map, List.filter_filter]
          congr 2
          apply List.filter_congr
          intro index _
          rw [Bool.eq_iff_iff]
          simp only [Function.comp_apply, List.get_cons_succ',
            Bool.and_eq_true, decide_eq_true_iff, List.mem_cons, not_or]
          rw [and_comm, ne_comm]

private theorem firstOfEachKey_nil_seen (values : List α) :
    firstOfEachKey key [] values = (firstIndices key values).map values.get := by
  rw [firstOfEachKey_eq, List.filter_eq_self.2]
  intro index _
  simp

private theorem nodup_key_firstIndices (values : List α) :
    ((firstIndices key values).map fun index => key (values.get index)).Nodup := by
  have ordered : (firstIndices key values).Pairwise (· < ·) :=
    (List.pairwise_lt_finRange _).filter _
  rw [List.Nodup, List.pairwise_map]
  apply ordered.imp_of_mem
  intro earlier later _ isFirst before
  exact (mem_firstIndices key).1 isFirst earlier before

/-- Every value has a first one of its key, which does not come after it. -/
theorem exists_mem_firstIndices (values : List α) (index : Fin values.length) :
    ∃ first ∈ firstIndices key values, first ≤ index ∧
      key (values.get first) = key (values.get index) := by
  induction size : index.val using Nat.strongRecOn generalizing index with
  | ind _ inductionHypothesis =>
      subst size
      by_cases repeats : ∃ earlier < index,
          key (values.get earlier) = key (values.get index)
      · obtain ⟨earlier, before, same⟩ := repeats
        obtain ⟨first, member, notAfter, sameKey⟩ :=
          inductionHypothesis earlier.val before earlier rfl
        exact ⟨first, member, Nat.le_trans notAfter (Nat.le_of_lt before),
          sameKey.trans same⟩
      · have isFirst : index ∈ firstIndices key values := by
          rw [mem_firstIndices]
          intro earlier before same
          exact repeats ⟨earlier, before, same⟩
        exact ⟨index, isFirst, Nat.le_refl _, rfl⟩

/-- If the key tells which values are kept, it makes no difference whether the
others are left out before or after the repeated keys. -/
theorem firstOfEachKey_filter {keeps : α → Bool}
    (determined : ∀ left right, key left = key right → keeps left = keeps right)
    {few seen : List κ}
    (agree : ∀ value, keeps value = true → (key value ∈ few ↔ key value ∈ seen))
    (values : List α) :
    firstOfEachKey key few (values.filter keeps) =
      (firstOfEachKey key seen values).filter keeps := by
  induction values generalizing few seen with
  | nil => rfl
  | cons value rest inductionHypothesis =>
      cases kept : keeps value with
      | false =>
          rw [List.filter_cons_of_neg (by simp [kept]), firstOfEachKey]
          split
          · exact inductionHypothesis agree
          · rw [List.filter_cons_of_neg (by simp [kept])]
            apply inductionHypothesis
            intro other otherKept
            rw [List.mem_cons, agree other otherKept, or_iff_right]
            intro same
            rw [determined other value same, kept] at otherKept
            cases otherKept
      | true =>
          rw [List.filter_cons_of_pos kept, firstOfEachKey, firstOfEachKey]
          by_cases met : key value ∈ seen
          · rw [if_pos met, if_pos ((agree value kept).2 met)]
            exact inductionHypothesis agree
          · rw [if_neg met, if_neg fun early => met ((agree value kept).1 early),
              List.filter_cons_of_pos kept]
            congr 1
            apply inductionHypothesis
            intro other otherKept
            rw [List.mem_cons, List.mem_cons, agree other otherKept]

end FirstOfEachKey

/-! ### Signatures of text -/

/-- A text, and nothing for any other value. -/
def Json.plainText : Json → String
  | .str text => text
  | _ => ""

namespace Node

def typeText (parameter : Node) : String :=
  match parameter.typeStringOrEmpty with
  | .ok type => type.plainText
  | .error _ => ""

/-- What a function is told apart by: its name, or its kind if it has no name,
the types of its parameters, its visibility and its mutability. -/
def textKey (function : Node) : SignatureKey where
  name :=
    .text
      (if function.name.plainText = "" then function.functionKind.plainText
      else function.name.plainText)
  parameters := ",".intercalate (function.parameters.map typeText)
  visibility := .text function.visibility.plainText
  mutability := .text function.stateMutability.plainText

/-- All that the signature of a function is made of is text. -/
structure HasTextSignature (function : Node) : Prop where
  name : function.name.IsText
  kind : function.functionKind.IsText
  visibility : function.visibility.IsText
  mutability : function.stateMutability.IsText
  types : ∀ parameter ∈ function.parameters,
    ∃ text, parameter.typeStringOrEmpty = .ok (.str text)

private theorem mapM_typeStringOrEmpty {parameters : List Node}
    (types : ∀ parameter ∈ parameters,
      ∃ text, parameter.typeStringOrEmpty = .ok (.str text)) :
    parameters.mapM typeStringOrEmpty =
      .ok (parameters.map fun parameter => .str parameter.typeText) := by
  induction parameters with
  | nil => rfl
  | cons parameter rest inductionHypothesis =>
      obtain ⟨⟨text, typed⟩, later⟩ := List.forall_mem_cons.1 types
      have own : parameter.typeText = text := by
        rw [typeText, typed]
        rfl
      rw [List.mapM_cons, typed, inductionHypothesis later, List.map_cons, own]
      rfl

end Node

namespace Signature

private theorem textsFrom_map_str (position : Nat) (texts : List String) :
    textsFrom position (texts.map .str) = .ok texts := by
  induction texts generalizing position with
  | nil => rfl
  | cons text rest inductionHypothesis =>
      rw [List.map_cons, textsFrom, inductionHypothesis]
      rfl

private theorem exists_ofFunction {function : Node}
    (textual : function.HasTextSignature) :
    ∃ signature, ofFunction function = .ok signature ∧
      signature.key = .ok function.textKey := by
  obtain ⟨name, named⟩ := textual.name
  obtain ⟨kind, isKind⟩ := textual.kind
  obtain ⟨visibility, visible⟩ := textual.visibility
  obtain ⟨mutability, mutable⟩ := textual.mutability
  have types : function.parameters.mapM Node.typeStringOrEmpty =
      .ok ((function.parameters.map Node.typeText).map .str) := by
    rw [Node.mapM_typeStringOrEmpty textual.types, List.map_map]
    rfl
  have signed : ofFunction function = .ok
      { name := function.name.givenOr function.functionKind
        parameters := ",".intercalate (function.parameters.map Node.typeText)
        visibility := function.visibility
        mutability := function.stateMutability } := by
    rw [ofFunction, types]
    show (textsFrom 0 _).bind _ = _
    rw [textsFrom_map_str]
    rfl
  refine ⟨_, signed, ?_⟩
  rw [key, Node.textKey, named, isKind, visible, mutable]
  by_cases unnamed : name = ""
  · rw [unnamed]
    rfl
  · have given : (Json.str name).isGiven = true := by
      rw [Json.isGiven, Bool.not_eq_true', ← Bool.not_eq_true,
        String.isEmpty_iff]
      exact unnamed
    have kept : (Json.str name).plainText ≠ "" := unnamed
    rw [Json.givenOr, if_pos given, if_neg kept]
    rfl

end Signature

namespace Compilation

private theorem firstOfEachSignature_eq {functions : List Node}
    (textual : ∀ function ∈ functions, function.HasTextSignature)
    (seen : List SignatureKey) :
    firstOfEachSignature seen functions =
      .ok (firstOfEachKey Node.textKey seen functions) := by
  induction functions generalizing seen with
  | nil => rfl
  | cons function rest inductionHypothesis =>
      obtain ⟨own, later⟩ := List.forall_mem_cons.1 textual
      obtain ⟨signature, signed, keyed⟩ := Signature.exists_ofFunction own
      rw [firstOfEachSignature, signed, firstOfEachKey]
      simp only [keyed, inductionHypothesis later]
      split
      · rfl
      · rfl

/-! ### Qualifying functions -/

/-- The function, declared in a base of the contract, can be called from
outside. -/
structure Qualifies (contract base function : Node) : Prop where
  implemented : function.isImplemented = true
  visible : function.visibility = .str "public" ∨
    function.visibility = .str "external"
  own : function.functionKind = .str "constructor" →
    base.info.position = contract.info.position

private theorem isRootCandidate_iff {options : AnalysisOptions}
    {contract base function : Node} :
    isRootCandidate options contract base function = true ↔
      Qualifies contract base function ∧
        (options.includeAll || !function.isStatic) = true := by
  have foreign : (function.functionKind.isText "constructor" &&
      base.info.position != contract.info.position) = false ↔
        (function.functionKind = .str "constructor" →
          base.info.position = contract.info.position) := by
    rw [Bool.and_eq_false_imp, Json.isText_iff, bne_eq_false_iff_eq]
  have visible : function.visibility.isOneOf ["public", "external"] = true ↔
      function.visibility = .str "public" ∨
        function.visibility = .str "external" := by
    simp only [Json.isOneOf, List.any_cons, List.any_nil, Bool.or_false,
      Bool.or_eq_true, Json.isText_iff]
  rw [isRootCandidate, Bool.and_eq_true, Bool.and_eq_true, Bool.and_eq_true,
    Bool.not_eq_true', foreign, visible]
  constructor
  · intro candidate
    obtain ⟨⟨⟨implemented, isVisible⟩, wanted⟩, own⟩ := candidate
    exact ⟨⟨implemented, isVisible, own⟩, wanted⟩
  · intro candidate
    obtain ⟨⟨implemented, isVisible, own⟩, wanted⟩ := candidate
    exact ⟨⟨⟨implemented, isVisible⟩, wanted⟩, own⟩

instance (contract base function : Node) :
    Decidable (Qualifies contract base function) :=
  decidable_of_iff
    (isRootCandidate { includeAll := true } contract base function = true)
    (isRootCandidate_iff.trans (and_iff_left rfl))

/-- The qualifying functions of a contract and its bases, those of the most
derived contract first and those of one contract as they are declared. -/
def qualifying (compilation : Compilation) (contract : Node) : List Node :=
  (compilation.linearizedBases contract).flatMap fun base =>
    (base.membersOfKind .functionDefinition).filter fun function =>
      Qualifies contract base function

variable {compilation : Compilation} {contract : Node}

private theorem rootCandidates_eq (options : AnalysisOptions) :
    compilation.rootCandidates options contract =
      (compilation.qualifying contract).filter fun function =>
        options.includeAll || !function.isStatic := by
  rw [rootCandidates, qualifying, List.filter_flatMap]
  congr 1
  funext base
  rw [List.filter_filter]
  apply List.filter_congr
  intro function _
  rw [Bool.eq_iff_iff, isRootCandidate_iff, Bool.and_eq_true, decide_eq_true_iff,
    and_comm]

/-- A function that may not change the state is told by its mutability. -/
theorem isStatic_eq (function : Node) :
    function.isStatic =
      decide (function.textKey.mutability ∈
        [.text "pure", .text "view", .text "constant"]) := by
  rw [Node.isStatic, Node.textKey]
  cases function.stateMutability with
  | str text =>
      rw [Bool.eq_iff_iff]
      simp [Json.isOneOf, Json.isText, Json.plainText]
  | _ => rfl

private theorem isStatic_eq_of_textKey {left right : Node}
    (same : left.textKey = right.textKey) : left.isStatic = right.isStatic := by
  rw [isStatic_eq, isStatic_eq, same]

/-- The roots of a contract are the qualifying functions for which there is no
earlier one with the same signature, in their order.  So their signatures are
different, every qualifying function has a root of its signature that does not
come after it, and without the functions that may not change the state, the
roots are the others among these. -/
theorem roots_are_first_of_their_signature (compilation : Compilation)
    (options : AnalysisOptions) (contract : Node)
    (textual : ∀ base ∈ compilation.linearizedBases contract,
      ∀ function ∈ base.membersOfKind .functionDefinition,
        function.HasTextSignature) :
    let functions := compilation.qualifying contract
    let firsts := firstIndices Node.textKey functions
    compilation.roots { options with includeAll := true } contract =
        .ok (firsts.map functions.get) ∧
      (firsts.map fun index => (functions.get index).textKey).Nodup ∧
      (∀ index, ∃ first ∈ firsts, first ≤ index ∧
        (functions.get first).textKey = (functions.get index).textKey) ∧
      compilation.roots { options with includeAll := false } contract =
        .ok ((firsts.map functions.get).filter fun function =>
          !function.stateMutability.isOneOf ["pure", "view", "constant"]) := by
  intro functions firsts
  have allTextual : ∀ function ∈ functions, function.HasTextSignature := by
    intro function member
    obtain ⟨base, isBase, declared⟩ := List.mem_flatMap.1 member
    exact textual base isBase function (List.mem_filter.1 declared).1
  have selected : firstOfEachKey Node.textKey [] functions =
      firsts.map functions.get :=
    firstOfEachKey_nil_seen Node.textKey functions
  refine ⟨?_, nodup_key_firstIndices Node.textKey functions,
    exists_mem_firstIndices Node.textKey functions, ?_⟩
  · rw [roots, rootCandidates_eq, ← selected, ← firstOfEachSignature_eq allTextual]
    congr 1
    exact List.filter_eq_self.2 fun _ _ => rfl
  · have changing : ∀ function ∈ functions.filter fun function => !function.isStatic,
        function.HasTextSignature := by
      intro function member
      exact allTextual function (List.mem_filter.1 member).1
    have commutes : firstOfEachKey Node.textKey []
        (functions.filter fun function => !function.isStatic) =
        (firstOfEachKey Node.textKey [] functions).filter fun function =>
          !function.isStatic := by
      apply firstOfEachKey_filter
      · intro left right same
        rw [isStatic_eq_of_textKey same]
      · intro function _
        rfl
    rw [roots, rootCandidates_eq, ← selected]
    refine (firstOfEachSignature_eq changing []).trans ?_
    rw [commutes]
    rfl

/-! ### A contract that overrides a function of its base -/

def publicFunction (id : Nat) (kind name mutability : String) : Sample :=
  .make .functionDefinition id
    [("kind", .str kind), ("name", .str name), ("visibility", .str "public"),
      ("stateMutability", .str mutability), ("implemented", .bool true)]
    [] none []

def overridingContract : Sample :=
  .contract 1 "Derived" [1, 4]
    [publicFunction 2 "function" "run" "nonpayable",
      publicFunction 3 "function" "size" "view"]

def overriddenContract : Sample :=
  .contract 4 "Base" [4]
    [publicFunction 5 "constructor" "" "nonpayable",
      publicFunction 6 "function" "run" "nonpayable",
      publicFunction 7 "function" "run" "payable",
      publicFunction 8 "function" "stop" "nonpayable"]

def overridingUnits : List (String × Sample) :=
  [("src/Derived.sol",
    .unit 0 (.str "src/Derived.sol") [overridingContract, overriddenContract])]

def overriding : Compilation :=
  Sample.compilation overridingUnits

def derived : Node :=
  overridingContract.node (some 0) "nodes" true

private theorem read_overriding :
    (Reading.read (Sample.file overridingUnits)).outcome = .ok overriding :=
  (rfl)

private theorem hasTextSignature_publicFunction (id : Nat)
    (kind name mutability : String) (parent : Option Nat) (field : String)
    (listed : Bool) :
    ((publicFunction id kind name mutability).node parent field
      listed).HasTextSignature := by
  refine ⟨⟨name, rfl⟩, ⟨kind, rfl⟩, ⟨"public", rfl⟩, ⟨mutability, rfl⟩, ?_⟩
  intro parameter isParameter
  cases isParameter

private theorem textual_overriding :
    ∀ base ∈ overriding.linearizedBases derived,
      ∀ function ∈ base.membersOfKind .functionDefinition,
        function.HasTextSignature := by
  have signed := hasTextSignature_publicFunction
  have ofDerived : ∀ function ∈ derived.children, function.HasTextSignature :=
    List.forall_mem_cons.2 ⟨signed .., List.forall_mem_singleton.2 (signed ..)⟩
  have ofBase : ∀ function ∈
      (overriddenContract.node (some 0) "nodes" true).children,
        function.HasTextSignature :=
    List.forall_mem_cons.2 ⟨signed .., List.forall_mem_cons.2 ⟨signed ..,
      List.forall_mem_cons.2 ⟨signed ..,
        List.forall_mem_singleton.2 (signed ..)⟩⟩⟩
  intro base isBase function member
  have declared := (List.mem_filter.1 (List.mem_filter.1 member).1).1
  have bases : overriding.linearizedBases derived =
      [derived, overriddenContract.node (some 0) "nodes" true] := rfl
  rw [bases, List.mem_cons, List.mem_singleton] at isBase
  rcases isBase with rfl | rfl
  · exact ofDerived function declared
  · exact ofBase function declared

/-- The function of the base that is overridden is no root, nor is the
constructor of the base. -/
theorem roots_overriding :
    (Reading.read (Sample.file overridingUnits)).outcome = .ok overriding ∧
    (∀ base ∈ overriding.linearizedBases derived,
      ∀ function ∈ base.membersOfKind .functionDefinition,
        function.HasTextSignature) ∧
    ∃ all changing,
      overriding.roots { includeAll := true } derived = .ok all ∧
      overriding.roots { includeAll := false } derived = .ok changing ∧
      all.map (fun function => function.name.plainText) =
        ["run", "size", "run", "stop"] ∧
      changing.map (fun function => function.name.plainText) =
        ["run", "run", "stop"] := by
  obtain ⟨all, -, -, changing⟩ :=
    roots_are_first_of_their_signature overriding {} derived textual_overriding
  refine ⟨read_overriding, textual_overriding, _, _, all, changing, ?_, ?_⟩
  · decide
  · decide

end Compilation

end ContractAtlas
