/-
Options of a call.

The value and the gas of a call are written as options around its callee or,
in the older form, as calls of a member `value` or `gas` around it.  Both forms
can alternate in any number.  What names the target of the call is found below
all of them, so a call has the same callee with and without options, and with
it the same target and the same class.
-/

import ContractAtlas.Proofs.Call.FirstReference

namespace ContractAtlas

namespace Node

open Relation

/-- Options in any number and nesting around an expression. -/
inductive Wraps : Option Node → Option Node → Prop
  | bare (expression : Option Node) : Wraps expression expression
  | options {outer : Node} {expression : Option Node}
      (isOptions : outer.kind = .functionCallOptions)
      (below : Wraps outer.expression? expression) :
      Wraps (some outer) expression
  /-- A call of a member `value` or `gas` that refers to nothing. -/
  | legacy {outer access : Node} {expression : Option Node}
      (isCall : outer.kind = .functionCall)
      (called : outer.expression? = some access)
      (isAccess : access.kind = .memberAccess)
      (named : access.memberName = .str "value" ∨
        access.memberName = .str "gas")
      (unresolved : access.info.target = none)
      (below : Wraps access.expression? expression) :
      Wraps (some outer) expression

/-- The node can name the target of a call. -/
def NamesTarget (node : Node) : Prop :=
  node.kind = .memberAccess ∨ node.kind = .identifier ∨
    node.kind = .identifierPath

private theorem isLegacyOption_iff {access : Node} :
    access.isLegacyOption = true ↔
      access.kind = .memberAccess ∧
        (access.memberName = .str "value" ∨ access.memberName = .str "gas") ∧
        access.info.target = none := by
  unfold isLegacyOption
  rw [Bool.and_eq_true, Bool.and_eq_true, decide_eq_true_eq,
    Option.isNone_iff_eq_none, and_assoc]
  simp [Json.isOneOf, Json.isText_iff]

private theorem unwrapOptions_of_namesTarget {node : Node}
    (names : node.NamesTarget) :
    node.unwrapOptions = some node := by
  unfold unwrapOptions
  rcases names with isAccess | isIdentifier | isPath
  · rw [isAccess]
  · rw [isIdentifier]
  · rw [isPath]

/-- What names the target is the same with and without options. -/
theorem Wraps.unwrapOptions_eq {wrapped expression : Option Node}
    (wraps : Wraps wrapped expression) :
    wrapped.bind unwrapOptions = expression.bind unwrapOptions := by
  induction wraps with
  | bare expression => rfl
  | options isOptions below inductionHypothesis =>
      rw [Option.bind_some, unwrapOptions_of_options isOptions]
      exact inductionHypothesis
  | legacy isCall called isAccess named unresolved below inductionHypothesis =>
      have isOption := isLegacyOption_iff.2 ⟨isAccess, named, unresolved⟩
      rw [Option.bind_some, unwrapOptions_of_call isCall, called,
        Option.bind_some, if_pos isOption]
      exact inductionHypothesis

private theorem wraps_of_unwrapOptions {expression callee : Node}
    (found : expression.unwrapOptions = some callee) :
    Wraps (some expression) (some callee) ∧ callee.NamesTarget := by
  fun_induction unwrapOptions expression with
  | case1 expression isOptions inner wrapped inductionHypothesis =>
      obtain ⟨below, names⟩ := inductionHypothesis found
      rw [← wrapped] at below
      exact ⟨.options isOptions below, names⟩
  | case3 expression isCall access called isOption inner wrapped
      inductionHypothesis =>
      obtain ⟨below, names⟩ := inductionHypothesis found
      obtain ⟨isAccess, named, unresolved⟩ := isLegacyOption_iff.1 isOption
      rw [← wrapped] at below
      exact ⟨.legacy isCall called isAccess named unresolved below, names⟩
  | case7 expression isAccess =>
      rw [Option.some.inj found] at isAccess ⊢
      exact ⟨.bare _, Or.inl isAccess⟩
  | case8 expression isIdentifier =>
      rw [Option.some.inj found] at isIdentifier ⊢
      exact ⟨.bare _, Or.inr (Or.inl isIdentifier)⟩
  | case9 expression isPath =>
      rw [Option.some.inj found] at isPath ⊢
      exact ⟨.bare _, Or.inr (Or.inr isPath)⟩
  | case2 | case4 | case5 | case6 | case10 => cases found

/-- The result is the first node below the options if that one can name a
target, and there is no result otherwise. -/
theorem unwrapOptions_eq_some_iff {expression callee : Node} :
    expression.unwrapOptions = some callee ↔
      Wraps (some expression) (some callee) ∧ callee.NamesTarget := by
  constructor
  · exact wraps_of_unwrapOptions
  · intro both
    have same := both.1.unwrapOptions_eq
    rw [Option.bind_some, Option.bind_some,
      unwrapOptions_of_namesTarget both.2] at same
    exact same

end Node

namespace Compilation

variable {compilation : Compilation} {call other : Node}

/-! ### Calls with the same callee -/

private theorem referenced?_congr (isCall : call.kind = .functionCall)
    (otherIsCall : other.kind = .functionCall)
    (same : call.callee? = other.callee?) :
    compilation.referenced? call = compilation.referenced? other := by
  unfold referenced? Node.referencedPosition?
  rw [if_pos isCall, if_pos otherIsCall, same]

private theorem lowLevelKind_congr (same : call.callee? = other.callee?) :
    lowLevelKind call = lowLevelKind other := by
  unfold lowLevelKind
  rw [same]

private theorem classify_congr (same : call.callee? = other.callee?)
    (noStatic : Bool) :
    compilation.classify noStatic call = compilation.classify noStatic other := by
  unfold classify isHighLevel route
  rw [lowLevelKind_congr same, same]

/-- Options never change what a call means.  Below options in any number and
nesting, what names the target of a call is that of the expression inside them,
so a call has the same callee, target, low-level kind and class with them as
without them, whether or not static functions are left out.  The result is the
node inside the options if it is a member access, an identifier or an
identifier path, and there is none otherwise; it is the expression itself or
lies below it. -/
theorem options_keep_meaning (compilation : Compilation) :
    (∀ wrapped expression, Node.Wraps wrapped expression →
      wrapped.bind Node.unwrapOptions = expression.bind Node.unwrapOptions ∧
      ∀ call bare : Node, call.kind = .functionCall →
        bare.kind = .functionCall → call.expression? = wrapped →
        bare.expression? = expression →
        call.callee? = bare.callee? ∧
          compilation.referenced? call = compilation.referenced? bare ∧
          lowLevelKind call = lowLevelKind bare ∧
          ∀ noStatic, compilation.classify noStatic call =
            compilation.classify noStatic bare) ∧
    ∀ expression callee : Node,
      (expression.unwrapOptions = some callee ↔
        Node.Wraps (some expression) (some callee) ∧ callee.NamesTarget) ∧
      (expression.unwrapOptions = some callee →
        Relation.ReflTransGen Node.HasChild expression callee) := by
  constructor
  · intro wrapped expression wraps
    refine ⟨wraps.unwrapOptions_eq, ?_⟩
    intro call bare isCall bareIsCall called bareCalled
    have same : call.callee? = bare.callee? := by
      unfold Node.callee?
      rw [called, bareCalled]
      exact wraps.unwrapOptions_eq
    exact ⟨same, referenced?_congr isCall bareIsCall same,
      lowLevelKind_congr same, classify_congr same⟩
  · intro expression callee
    exact ⟨Node.unwrapOptions_eq_some_iff, Node.below_of_unwrapOptions⟩

/-- `vault.deposit{value: 1}.gas(2)` -/
def depositWithOptions (id : Nat) : Sample :=
  .call id
    (.member (id + 1) "gas" none
      (.make .functionCallOptions (id + 2) []
        [("expression", .one (vaultDeposit (id + 3)))] none []))

/-- `function forward() { vault.deposit{value: 1}.gas(2)(); }` -/
def optionsBody : List Sample :=
  [.call 3 (depositWithOptions 4)]

private theorem read_optionsBody :
    (Reading.read (Sample.file
      (forwardingUnits "payable" optionsBody))).outcome =
        .ok (forwarding "payable" optionsBody) :=
  (rfl)

theorem options_keep_deposit_external :
    (Reading.read (Sample.file
        (forwardingUnits "payable" optionsBody))).outcome =
          .ok (forwarding "payable" optionsBody) ∧
      ∃ call wrapped expression : Node,
        (forwarding "payable" optionsBody).nodeAt? 3 = some call ∧
        call.expression? = some wrapped ∧
        (forwarding "payable" optionsBody).nodeAt? 7 = some expression ∧
        Node.Wraps (some wrapped) (some expression) ∧
        wrapped.unwrapOptions = some expression ∧
        (forwarding "payable" optionsBody).classify false call =
          .ok { callType := .highLevel } := by
  have wraps : Node.Wraps
      (some ((depositWithOptions 4).node (some 3) "expression" false))
      (some ((vaultDeposit 7).node (some 6) "expression" false)) :=
    .legacy rfl rfl rfl (Or.inr rfl) rfl (.options rfl (.bare _))
  obtain ⟨outside, inside⟩ :=
    options_keep_meaning (forwarding "payable" optionsBody)
  -- The same member is called without options by `vault.deposit()`.
  obtain ⟨-, -, -, sameClass⟩ := (outside _ _ wraps).2
    (inBody (.call 3 (depositWithOptions 4))) (inBody (callDeposit 6)) rfl rfl
    rfl rfl
  refine ⟨read_optionsBody, inBody (.call 3 (depositWithOptions 4)), _, _, rfl,
    rfl, rfl, wraps, ((inside _ _).1).2 ⟨wraps, Or.inl rfl⟩, ?_⟩
  rw [sameClass false]
  exact classify_callDeposit _ _ 6

end Compilation

end ContractAtlas
