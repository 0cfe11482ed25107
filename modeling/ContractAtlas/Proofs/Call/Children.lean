/-
The children of a definition.

A node below a definition mentions at most one thing: a low-level call, a name
that no declaration stands behind, or another function or modifier.  The
children of the definition are these mentions in the order of the walk.  Every
low-level call is one of them, while a name or a target is listed only where it
is mentioned first.
-/

import ContractAtlas.Proofs.Call.LowLevel

namespace ContractAtlas

open Relation

/-- What a node below a definition adds to its children. -/
inductive Mention (compilation : Compilation) where
  | lowLevel (kind : LowLevelKind)
  | unresolved (name : String)
  | target (place : compilation.Place)
deriving DecidableEq

namespace Mention

variable {compilation : Compilation}

def isLowLevel : Mention compilation → Bool
  | lowLevel _ => true
  | unresolved _ => false
  | target _ => false

/-- The mentions that repeat no earlier one, where a low-level call never
repeats another. -/
def firsts : List (Mention compilation) → List (Mention compilation)
  | [] => []
  | first :: rest =>
      first :: (firsts rest).filter fun later =>
        later.isLowLevel || later ≠ first

private theorem mem_firsts {mentions : List (Mention compilation)}
    {mention : Mention compilation} :
    mention ∈ firsts mentions ↔ mention ∈ mentions := by
  induction mentions with
  | nil => rfl
  | cons first rest inductionHypothesis =>
      rw [firsts, List.mem_cons, List.mem_cons, List.mem_filter,
        inductionHypothesis]
      by_cases same : mention = first
      · simp [same]
      · simp [same]

private theorem pairwise_firsts (mentions : List (Mention compilation)) :
    (firsts mentions).Pairwise fun earlier later =>
      later.isLowLevel = true ∨ later ≠ earlier := by
  induction mentions with
  | nil => exact .nil
  | cons first rest inductionHypothesis =>
      rw [firsts, List.pairwise_cons]
      constructor
      · intro later kept
        simpa using (List.mem_filter.1 kept).2
      · exact inductionHypothesis.filter _

private theorem nodup_filterMap_firsts {α : Type}
    (mentions : List (Mention compilation)) {key : Mention compilation → Option α}
    (keyless : ∀ kind, key (.lowLevel kind) = none)
    (injective : ∀ mention other value, key mention = some value →
      key other = some value → mention = other) :
    ((firsts mentions).filterMap key).Nodup := by
  apply (pairwise_firsts mentions).filterMap
  intro earlier later distinct value isValue other isOther same
  subst same
  rcases distinct with lowLevel | different
  · cases later with
    | lowLevel kind =>
        rw [keyless kind] at isOther
        cases isOther
    | unresolved | target => cases lowLevel
  · exact different (injective later earlier value isOther isValue)

def position? : Mention compilation → Option Nat
  | lowLevel _ => none
  | unresolved _ => none
  | target place => some place.val

def name? : Mention compilation → Option Json
  | lowLevel _ => none
  | unresolved name => some (.str name)
  | target _ => none

private theorem eq_target_of_position? {mention : Mention compilation}
    {place : compilation.Place} (found : mention.position? = some place.val) :
    mention = .target place := by
  cases mention with
  | lowLevel | unresolved => cases found
  | target other => rw [Fin.ext (Option.some.inj found)]

private theorem eq_unresolved_of_name? {mention : Mention compilation}
    {name : String}
    (found : mention.name? = some (.str name)) : mention = .unresolved name := by
  cases mention with
  | lowLevel | target => cases found
  | unresolved other =>
      cases found
      rfl

private theorem nodup_positions_firsts (mentions : List (Mention compilation)) :
    ((firsts mentions).filterMap position?).Nodup := by
  apply nodup_filterMap_firsts
  · exact fun _ => rfl
  · intro mention other position isPosition isOther
    cases mention with
    | lowLevel | unresolved => cases isPosition
    | target place =>
        exact (eq_target_of_position? (isOther.trans isPosition.symm)).symm

private theorem nodup_names_firsts (mentions : List (Mention compilation)) :
    ((firsts mentions).filterMap name?).Nodup := by
  apply nodup_filterMap_firsts
  · exact fun _ => rfl
  · intro mention other name isName isOther
    cases mention with
    | lowLevel | target => cases isName
    | unresolved text =>
        exact (eq_unresolved_of_name? (isOther.trans isName.symm)).symm

/-- Neither the target nor the name of a mention was met before. -/
def isFresh (targets : List compilation.Place) (names : List Json.Key) :
    Mention compilation → Bool
  | lowLevel _ => true
  | unresolved name => !names.contains (.text name)
  | target place => !targets.contains place

theorem isFresh_nil (mention : Mention compilation) :
    mention.isFresh [] [] = true := by
  cases mention with
  | lowLevel | unresolved | target => rfl

private theorem isFresh_of_lowLevel (targets : List compilation.Place)
    (names : List Json.Key) (kind : LowLevelKind) (later : Mention compilation) :
    later.isFresh targets names =
      (later.isFresh targets names &&
        (later.isLowLevel || later ≠ .lowLevel kind)) := by
  cases later with
  | lowLevel | unresolved | target => simp [isLowLevel]

theorem isFresh_name_cons (targets : List compilation.Place)
    (names : List Json.Key) (name : String) (later : Mention compilation) :
    later.isFresh targets (.text name :: names) =
      (later.isFresh targets names &&
        (later.isLowLevel || later ≠ .unresolved name)) := by
  cases later with
  | lowLevel | target => simp [isFresh, isLowLevel]
  | unresolved other =>
      simp [isFresh, isLowLevel, Bool.and_comm]

theorem isFresh_target_cons (targets : List compilation.Place)
    (names : List Json.Key) (place : compilation.Place)
    (later : Mention compilation) :
    later.isFresh (place :: targets) names =
      (later.isFresh targets names &&
        (later.isLowLevel || later ≠ .target place)) := by
  cases later with
  | lowLevel | unresolved => simp [isFresh, isLowLevel]
  | target other =>
      simp [isFresh, isLowLevel, Bool.and_comm]

private theorem filter_firsts_of_stale {keeps : Mention compilation → Bool}
    {first : Mention compilation} (stale : keeps first = false)
    (rest : List (Mention compilation)) :
    (firsts (first :: rest)).filter keeps = (firsts rest).filter keeps := by
  rw [firsts, List.filter_cons_of_neg (by simp [stale]), List.filter_filter]
  apply List.filter_congr
  intro later _
  by_cases same : later = first
  · rw [same, stale, Bool.false_and]
  · simp [same]

private theorem filter_firsts_of_fresh
    {keeps keepsLater : Mention compilation → Bool}
    {first : Mention compilation} (fresh : keeps first = true)
    (narrows : ∀ later,
      keepsLater later = (keeps later && (later.isLowLevel || later ≠ first)))
    (rest : List (Mention compilation)) :
    (firsts (first :: rest)).filter keeps =
      first :: (firsts rest).filter keepsLater := by
  rw [firsts, List.filter_cons_of_pos fresh, List.filter_filter]
  congr 1
  apply List.filter_congr
  intro later _
  exact (narrows later).symm

end Mention

namespace CallNode

/-- The leaf of a name that no declaration stands behind. -/
def unresolvedCall (name : String) : CallNode :=
  .mk { name := .plain (.str name) } []

/-- The name of a node that has no definition and is no low-level call. -/
def bareName? (node : CallNode) : Option Json :=
  if node.info.declaration.isNone && node.info.lowLevel.isNone then
    some node.name
  else none

end CallNode

namespace Node

/-- The node refers to a user declaration by a number that is not negative. -/
def HasReference (node : Node) : Prop :=
  ∃ value number, node.attribute? "referencedDeclaration" = some value ∧
    value.toInt? = some number ∧ 0 ≤ number

private theorem isSome_referenceId?_iff {node : Node} :
    node.referenceId?.isSome = true ↔ node.HasReference := by
  unfold referenceId? HasReference
  cases node.attribute? "referencedDeclaration" with
  | none => simp
  | some value =>
      cases number : value.toInt? with
      | none => simp [number]
      | some number => simp [number]

end Node

namespace Compilation

/-- The node is a call of a name that refers to a declaration, and that
declaration is not part of the compilation. -/
structure Misses (compilation : Compilation) (node : Node) (name : String) :
    Prop where
  isCall : node.kind = .functionCall
  ordinary : node.callKind = .str "functionCall"
  called : ∃ callee, node.callee? = some callee ∧ callee.HasReference ∧
    (if callee.kind = .memberAccess then callee.memberName else callee.name) =
      .str name
  given : name ≠ ""
  missing : compilation.referenced? node = none

/-- What a node below a definition mentions. -/
def mention? (compilation : Compilation) (options : TreeOptions)
    (definition : compilation.Place) (node : Node) :
    Option (Mention compilation) :=
  match lowLevelSite node with
  | .ok (some kind) =>
      if options.includeLowLevel then some (.lowLevel kind) else none
  | _ =>
      match compilation.referenced? node with
      | some target =>
          if target ≠ definition ∧
              (compilation.node target).kind.isCallable = true then
            some (.target target)
          else none
      | none =>
          match unresolvedName node with
          | .str name => if name = "" then none else some (.unresolved name)
          | _ => none

/-- What the nodes below a definition mention, in the order of the walk. -/
def mentions (compilation : Compilation) (options : TreeOptions)
    (definition : compilation.Place) : List (Mention compilation) :=
  (compilation.node definition).descendants.filterMap
    (compilation.mention? options definition)

variable {compilation : Compilation} {options : TreeOptions}
  {definition : compilation.Place}

/-! ### What a node mentions -/

private theorem unresolvedName_eq_str_iff {node : Node} {name : String} :
    unresolvedName node = .str name ↔
      node.kind = .functionCall ∧ node.callKind = .str "functionCall" ∧
        ∃ callee, node.callee? = some callee ∧ callee.HasReference ∧
          (if callee.kind = .memberAccess then callee.memberName
            else callee.name) = .str name := by
  unfold unresolvedName
  split
  · next plain =>
      rw [Bool.and_eq_true, decide_eq_true_eq, Json.isText_iff] at plain
      split
      · next callee found =>
          split
          · next refers =>
              rw [Node.isSome_referenceId?_iff] at refers
              simp [plain, found, refers]
          · next lacks =>
              rw [Node.isSome_referenceId?_iff] at lacks
              simp [plain, found, lacks]
      · next absent => simp [plain, absent]
  · next other =>
      rw [Bool.and_eq_true, decide_eq_true_eq, Json.isText_iff] at other
      simp only [reduceCtorEq, false_iff]
      intro named
      exact other ⟨named.1, named.2.1⟩

private theorem not_isLowLevelCall_of_hasReference {node callee : Node}
    (found : node.callee? = some callee) (refers : callee.HasReference) :
    ¬ IsLowLevelCall node := by
  intro isLowLevel
  obtain ⟨-, kind, lowLevel⟩ := isLowLevel
  have resolved := Node.isSome_referenceId?_iff.2 refers
  rw [lowLevelKind, found] at lowLevel
  grind

private theorem lowLevelSite_of_textual {node : Node}
    (textual : node.TextualBelow)
    (plain : ¬ IsLowLevelCall node) : lowLevelSite node = .ok none := by
  obtain ⟨kind, found⟩ := exists_lowLevelSite textual
  cases kind with
  | none => exact found
  | some kind => exact absurd (isLowLevelCall_of_lowLevelSite found) plain

/-- A node is a low-level call, or it refers to a target, or it may be the call
of a name. -/
theorem mention?_cases (compilation : Compilation) (options : TreeOptions)
    (definition : compilation.Place) (node : Node) :
    (IsLowLevelCall node ∧ ∃ kind, lowLevelSite node = .ok (some kind) ∧
      compilation.mention? options definition node =
        if options.includeLowLevel then some (.lowLevel kind) else none) ∨
      (¬ IsLowLevelCall node ∧ ∃ target,
        compilation.referenced? node = some target ∧
        compilation.mention? options definition node =
          if target ≠ definition ∧
              (compilation.node target).kind.isCallable = true then
            some (.target target)
          else none) ∨
      (¬ IsLowLevelCall node ∧ compilation.referenced? node = none ∧
        ((∀ name, unresolvedName node ≠ .str name) ∧
            compilation.mention? options definition node = none ∨
          ∃ name, unresolvedName node = .str name ∧
            compilation.mention? options definition node =
              if name = "" then none else some (.unresolved name))) := by
  by_cases lowLevel : IsLowLevelCall node
  · obtain ⟨isCall, kind, found⟩ := lowLevel
    have site : lowLevelSite node = .ok (some kind) := by
      rw [lowLevelSite, if_pos isCall, found]
    refine Or.inl ⟨⟨isCall, kind, found⟩, kind, site, ?_⟩
    rw [mention?, site]
  · have plain : ∀ kind, lowLevelSite node ≠ .ok (some kind) :=
      fun kind found => lowLevel (isLowLevelCall_of_lowLevelSite found)
    refine Or.inr ?_
    cases found : compilation.referenced? node with
    | some target =>
        refine Or.inl ⟨lowLevel, target, rfl, ?_⟩
        unfold mention?
        split
        · next kind site => exact absurd site (plain kind)
        · rw [found]
    | none =>
        refine Or.inr ⟨lowLevel, rfl, ?_⟩
        unfold mention?
        split
        · next kind site => exact absurd site (plain kind)
        · rw [found]
          dsimp only
          split
          · next name named => exact Or.inr ⟨name, named, rfl⟩
          · next unnamed => exact Or.inl ⟨unnamed, rfl⟩

private theorem mention?_eq_target_iff {node : Node}
    {target : compilation.Place} :
    compilation.mention? options definition node = some (.target target) ↔
      target ≠ definition ∧
        (compilation.node target).kind.isCallable = true ∧
        compilation.PointsTo node target := by
  unfold PointsTo
  rcases compilation.mention?_cases options definition node with
    ⟨lowLevel, kind, -, mentioned⟩ | ⟨plain, found, refers, mentioned⟩ |
    ⟨-, missing, ⟨-, mentioned⟩ | ⟨name, -, mentioned⟩⟩
  · simp [mentioned, lowLevel]
  · simp only [mentioned, refers, plain, Option.ite_none_right_eq_some,
      Option.some.injEq, Mention.target.injEq]
    constructor
    · intro found
      obtain ⟨⟨other, callable⟩, same⟩ := found
      subst same
      exact ⟨other, callable, not_false, rfl⟩
    · intro points
      obtain ⟨other, callable, -, same⟩ := points
      subst same
      exact ⟨⟨other, callable⟩, rfl⟩
  · simp [mentioned, missing]
  · simp [mentioned, missing]

private theorem mention?_eq_unresolved_iff {node : Node} {name : String} :
    compilation.mention? options definition node = some (.unresolved name) ↔
      compilation.Misses node name := by
  rcases compilation.mention?_cases options definition node with
    ⟨lowLevel, kind, -, mentioned⟩ | ⟨-, target, refers, mentioned⟩ |
    ⟨-, missing, ⟨unnamed, mentioned⟩ | ⟨found, named, mentioned⟩⟩
  · constructor
    · simp [mentioned]
    · intro misses
      obtain ⟨callee, called, reference, -⟩ := misses.called
      exact absurd lowLevel
        (not_isLowLevelCall_of_hasReference called reference)
  · constructor
    · simp [mentioned]
    · intro misses
      rw [misses.missing] at refers
      cases refers
  · constructor
    · simp [mentioned]
    · intro misses
      exact absurd (unresolvedName_eq_str_iff.2
        ⟨misses.isCall, misses.ordinary, misses.called⟩) (unnamed name)
  · rw [mentioned]
    constructor
    · intro isName
      obtain ⟨given, same⟩ := Option.ite_none_left_eq_some.1 isName
      cases same
      obtain ⟨isCall, ordinary, called⟩ := unresolvedName_eq_str_iff.1 named
      exact ⟨isCall, ordinary, called, given, missing⟩
    · intro misses
      have same := unresolvedName_eq_str_iff.2
        ⟨misses.isCall, misses.ordinary, misses.called⟩
      rw [named] at same
      cases same
      rw [if_neg misses.given]

private theorem target_mem_mentions_iff {target : compilation.Place} :
    .target target ∈ compilation.mentions options definition ↔
      compilation.RefersTo definition target := by
  simp only [mentions, List.mem_filterMap, mention?_eq_target_iff,
    Node.mem_descendants_iff]
  constructor
  · intro mentioned
    obtain ⟨node, below, other, callable, points⟩ := mentioned
    exact ⟨other, callable, node, below, points⟩
  · intro refers
    obtain ⟨node, below, points⟩ := refers.pointed
    exact ⟨node, below, refers.other, refers.callable, points⟩

private theorem unresolved_mem_mentions_iff {name : String} :
    .unresolved name ∈ compilation.mentions options definition ↔
      ∃ node, TransGen Node.HasChild (compilation.node definition) node ∧
        compilation.Misses node name := by
  simp only [mentions, List.mem_filterMap, mention?_eq_unresolved_iff,
    Node.mem_descendants_iff]

/-! ### The walk lists first mentions -/

/-- A site stands for a mention. -/
inductive Meets : Mention compilation → Site compilation → Prop
  | lowLevel (kind : LowLevelKind) : Meets (.lowLevel kind) (.lowLevel kind)
  | unresolved (name : String) (src : Json) :
      Meets (.unresolved name) (.unresolved (.str name) src)
  | target (place : compilation.Place) (classification : Classification) :
      Meets (.target place) (.declared place classification)

/-- What the walk over textual nodes does at one of them: it passes over the
node, which mentions nothing new, or it lists what the node mentions and passes
over it from there on, unless it is a low-level call. -/
theorem sitesAmong_cons_of_textual (textual : compilation.Textual)
    (options : TreeOptions) (definition : compilation.Place)
    (targets : List compilation.Place) (names : List Json.Key) {node : Node}
    (nodeTextual : node.TextualBelow) (rest : List Node) :
    ((∀ mention, compilation.mention? options definition node = some mention →
        mention.isFresh targets names = false) ∧
      compilation.sitesAmong options definition targets names (node :: rest) =
        compilation.sitesAmong options definition targets names rest) ∨
      ∃ mention site moreTargets moreNames,
        compilation.mention? options definition node = some mention ∧
        mention.isFresh targets names = true ∧ Meets mention site ∧
        (∀ later, later.isFresh moreTargets moreNames =
          (later.isFresh targets names &&
            (later.isLowLevel || later ≠ mention))) ∧
        compilation.sitesAmong options definition targets names (node :: rest) =
          site :: compilation.sitesAmong options definition moreTargets
            moreNames rest := by
  rw [sitesAmong]
  rcases compilation.mention?_cases options definition node with
    ⟨-, kind, found, mentioned⟩ | ⟨plain, target, refers, mentioned⟩ |
    ⟨plain, missing, unresolved⟩
  · rw [found, mentioned]
    cases options.includeLowLevel with
    | false => exact Or.inl ⟨by simp, rfl⟩
    | true =>
        exact Or.inr ⟨.lowLevel kind, _, targets, names, rfl, rfl,
          .lowLevel kind, Mention.isFresh_of_lowLevel targets names kind, rfl⟩
  · rw [lowLevelSite_of_textual nodeTextual plain, refers, mentioned]
    dsimp only
    by_cases passes : compilation.PassesOver definition targets target
    · rw [if_pos (passesOver_iff.2 passes)]
      refine Or.inl ⟨?_, rfl⟩
      intro mention isMention
      obtain ⟨⟨other, callable⟩, same⟩ :=
        Option.ite_none_right_eq_some.1 isMention
      cases same
      rcases passes with isDefinition | notCallable | met
      · exact absurd isDefinition other
      · rw [callable] at notCallable
        cases notCallable
      · simp [Mention.isFresh, met]
    · obtain ⟨classification, classified⟩ :=
        exists_classifyReference textual options.noStatic nodeTextual
      rw [if_neg fun passed => passes (passesOver_iff.1 passed), classified]
      unfold PassesOver at passes
      rw [not_or, not_or, Bool.not_eq_false] at passes
      obtain ⟨other, callable, fresh⟩ := passes
      rw [if_pos ⟨other, callable⟩]
      exact Or.inr ⟨.target target, _, target :: targets, names, rfl,
        by simp [Mention.isFresh, fresh], .target target classification,
        Mention.isFresh_target_cons targets names target, rfl⟩
  · rw [lowLevelSite_of_textual nodeTextual plain, missing]
    dsimp only
    rcases unresolved with ⟨unnamed, mentioned⟩ | ⟨name, named, mentioned⟩
    · have absent : unresolvedName node = .null := by
        rcases unresolvedName_of_textual nodeTextual with isNull | ⟨name, named⟩
        · exact isNull
        · exact absurd named (unnamed name)
      rw [mentioned, absent]
      exact Or.inl ⟨by simp, rfl⟩
    · rw [mentioned, named]
      by_cases empty : name = ""
      · rw [if_pos empty, empty]
        exact Or.inl ⟨by simp, rfl⟩
      · have given : (Json.str name).isGiven = true := by
          simp [Json.isGiven, empty]
        rw [if_neg empty, if_pos given]
        simp only [Json.key?]
        by_cases met : Json.Key.text name ∈ names
        · rw [if_pos met]
          refine Or.inl ⟨?_, rfl⟩
          intro mention isMention
          cases isMention
          simp [Mention.isFresh, met]
        · rw [if_neg met]
          exact Or.inr ⟨.unresolved name, _, targets, .text name :: names, rfl,
            by simp [Mention.isFresh, met], .unresolved name node.src,
            Mention.isFresh_name_cons targets names name, rfl⟩

/-- The walk over textual nodes lists what they mention first. -/
theorem forall₂_meets_sitesAmong (textual : compilation.Textual)
    (options : TreeOptions) (definition : compilation.Place)
    (targets : List compilation.Place) (names : List Json.Key)
    {nodes : List Node} (nodesTextual : ∀ node ∈ nodes, node.TextualBelow) :
    List.Forall₂ Meets
      ((Mention.firsts
        (nodes.filterMap (compilation.mention? options definition))).filter
          (Mention.isFresh targets names))
      (compilation.sitesAmong options definition targets names nodes) := by
  induction nodes generalizing targets names with
  | nil => exact .nil
  | cons node rest inductionHypothesis =>
      obtain ⟨nodeTextual, restTextual⟩ := List.forall_mem_cons.1 nodesTextual
      rcases sitesAmong_cons_of_textual textual options definition targets names
          nodeTextual rest with
        ⟨stale, walked⟩ |
        ⟨mention, site, moreTargets, moreNames, mentioned, fresh, meets, narrows,
          walked⟩
      · have later := inductionHypothesis targets names restTextual
        rw [walked]
        cases mentioned : compilation.mention? options definition node with
        | none =>
            rw [List.filterMap_cons_none mentioned]
            exact later
        | some mention =>
            rw [List.filterMap_cons_some mentioned,
              Mention.filter_firsts_of_stale (stale mention mentioned)]
            exact later
      · rw [walked, List.filterMap_cons_some mentioned,
          Mention.filter_firsts_of_fresh fresh narrows]
        exact .cons meets
          (inductionHypothesis moreTargets moreNames restTextual)

private theorem forall₂_meets_sites (textual : compilation.Textual)
    (options : TreeOptions) (definition : compilation.Place) :
    List.Forall₂ Meets
      (Mention.firsts (compilation.mentions options definition))
      (compilation.sites options definition) := by
  have walked := forall₂_meets_sitesAmong textual options definition [] []
    fun _ member => (textual definition).of_mem_descendants member
  rw [List.filter_eq_self.2 fun mention _ => mention.isFresh_nil] at walked
  exact walked

/-! ### The child of a mention -/

open Classical in
private theorem firstReference_iff {first : Node} {target : compilation.Place} :
    compilation.FirstReference definition first target ↔
      target ≠ definition ∧
        (compilation.node target).kind.isCallable = true ∧
        (compilation.node definition).descendants.find?
          (fun node => compilation.PointsTo node target) = some first := by
  rw [List.find?_eq_some_iff_append]
  simp only [decide_eq_true_eq, Bool.not_eq_true', decide_eq_false_iff_not]
  constructor
  · intro reference
    exact ⟨reference.other, reference.callable, reference.pointed,
      reference.earliest⟩
  · intro found
    exact ⟨found.1, found.2.1, found.2.2.1, found.2.2.2⟩

open Classical in
private theorem RefersTo.exists_firstReference {target : compilation.Place}
    (refers : compilation.RefersTo definition target) :
    ∃ first, compilation.FirstReference definition first target := by
  obtain ⟨node, below, points⟩ := refers.pointed
  have found : ((compilation.node definition).descendants.find?
      fun node => compilation.PointsTo node target).isSome = true := by
    rw [List.find?_isSome]
    exact ⟨node, Node.mem_descendants_iff.2 below, decide_eq_true points⟩
  obtain ⟨first, isFirst⟩ := Option.isSome_iff_exists.1 found
  exact ⟨first,
    firstReference_iff.2 ⟨refers.other, refers.callable, isFirst⟩⟩

private theorem FirstReference.unique {first other : Node}
    {target : compilation.Place}
    (reference : compilation.FirstReference definition first target)
    (otherReference : compilation.FirstReference definition other target) :
    first = other := by
  obtain ⟨-, -, found⟩ := firstReference_iff.1 reference
  obtain ⟨-, -, otherFound⟩ := firstReference_iff.1 otherReference
  exact Option.some.inj (found.symm.trans otherFound)

/-- A target is listed with the class of the first reference to it. -/
theorem exists_firstReference_of_mem_sites (textual : compilation.Textual)
    {target : compilation.Place} {classification : Classification}
    (met : .declared target classification ∈
      compilation.sites options definition) :
    ∃ first, compilation.FirstReference definition first target ∧
      compilation.classifyReference options.noStatic first =
        .ok classification := by
  have refers := (declared_mem_sites_iff textual options definition target).1
    ⟨classification, met⟩
  obtain ⟨first, reference⟩ := refers.exists_firstReference
  obtain ⟨found, classified, only⟩ := reference.exists_filter_sites
    (stop_notMem_sites textual options definition)
  have kept := List.mem_filter.2
    ⟨met, Site.declares_iff.2 ⟨classification, rfl⟩⟩
  rw [only] at kept
  cases List.mem_singleton.1 kept
  exact ⟨first, reference, classified⟩

/-- A child of a definition presents what is mentioned below it.  The child of
a target has the class of the first reference if that is a call, and is
internal otherwise. -/
inductive Presents (compilation : Compilation) (options : TreeOptions)
    (definition : compilation.Place) : Mention compilation → CallNode → Prop
  | lowLevel (kind : LowLevelKind) :
      Presents compilation options definition (.lowLevel kind)
        (.lowLevelCall kind)
  | unresolved (name : String) :
      Presents compilation options definition (.unresolved name)
        (.unresolvedCall name)
  | target {place : compilation.Place} {child : CallNode} {first : Node}
      (declared : child.info.declaration = some (compilation.callable place))
      (reference : compilation.FirstReference definition first place)
      (called : first.kind = .functionCall →
        compilation.classify options.noStatic first =
          .ok ⟨child.info.callType, child.info.lowLevel⟩)
      (named : first.kind ≠ .functionCall → child.info.callType = .internal)
      (plain : child.info.callType ≠ .lowLevel) :
      Presents compilation options definition (.target place) child

private theorem presents_of_shows (textual : compilation.Textual)
    {path : List compilation.Place} {mention : Mention compilation}
    {site : Site compilation} {child : CallNode}
    (isSite : site ∈ compilation.sites options definition)
    (meets : Meets mention site)
    (shows : compilation.Shows options path site child) :
    compilation.Presents options definition mention child := by
  cases meets with
  | lowLevel kind =>
      cases shows with
      | lowLevel => exact .lowLevel kind
  | unresolved name src =>
      cases shows with
      | unresolved => exact .unresolved name
  | target place classification =>
      obtain ⟨first, reference, classified⟩ :=
        exists_firstReference_of_mem_sites textual isSite
      have plain := callType_ne_of_declared_mem isSite
      rw [← shows.class_of_declared] at classified plain
      refine .target shows.declaration reference ?_ ?_ plain
      · intro isCall
        rw [classifyReference, if_pos isCall] at classified
        exact classified
      · intro notCall
        rw [classifyReference, if_neg notCall] at classified
        exact (congrArg Classification.callType
          (Except.ok.inj classified)).symm

variable {path : List compilation.Place} {children : List CallNode}
  {mentions : List (Mention compilation)}

private theorem forall₂_presents (textual : compilation.Textual)
    (shown : List.Forall₂ (compilation.Shows options path)
      (compilation.sites options definition) children) :
    List.Forall₂ (compilation.Presents options definition)
      (Mention.firsts (compilation.mentions options definition)) children :=
  forall₂_comp (forall₂_meets_sites textual options definition) shown
    fun _ isSite _ _ => presents_of_shows textual isSite

private theorem filterMap_of_presents {α : Type} {label : CallNode → Option α}
    {key : Mention compilation → Option α}
    (agrees : ∀ mention child,
      compilation.Presents options definition mention child →
        label child = key mention)
    (listed : List.Forall₂ (compilation.Presents options definition) mentions
      children) :
    children.filterMap label = mentions.filterMap key := by
  induction listed with
  | nil => rfl
  | cons presents later inductionHypothesis =>
      rw [List.filterMap_cons, List.filterMap_cons, agrees _ _ presents,
        inductionHypothesis]

theorem Presents.position?_eq {mention : Mention compilation} {child : CallNode}
    (presents : compilation.Presents options definition mention child) :
    child.position? = mention.position? := by
  cases presents with
  | lowLevel | unresolved => rfl
  | target declared =>
      rw [CallNode.position?, declared]
      rfl

private theorem Presents.bareName?_eq {mention : Mention compilation}
    {child : CallNode}
    (presents : compilation.Presents options definition mention child) :
    child.bareName? = mention.name? := by
  cases presents with
  | lowLevel | unresolved => rfl
  | target declared =>
      rw [CallNode.bareName?, declared]
      rfl

private theorem filterMap_lowLevelKind?_sites (textual : compilation.Textual)
    (options : TreeOptions) (definition : compilation.Place) :
    (compilation.sites options definition).filterMap Site.lowLevelKind? =
      if options.includeLowLevel then
        lowLevelKinds (compilation.callsBelow definition)
      else [] := by
  cases included : options.includeLowLevel with
  | true =>
      have same : options = options.withLowLevel := by
        cases options
        cases included
        rfl
      rw [same]
      exact filterMap_lowLevelKind?_sitesAmong
        (stop_notMem_sites textual options.withLowLevel definition)
  | false =>
      have same : options = options.withoutLowLevel := by
        cases options
        cases included
        rfl
      rw [same, ← filter_isNone_sites]
      apply List.filterMap_eq_nil_iff.2
      intro site member
      simpa using (List.mem_filter.1 member).2

/-- The children of a definition are exact, for all options and below every
path.  They are what the nodes below the definition mention, in the order of
the walk and each thing once, low-level calls apart.  The children with a
definition stand for the functions and modifiers that are referred to, each
with the class of the first reference.  The others are the low-level calls, if
they are asked for, and one leaf for each name that is called and belongs to no
declaration of the compilation. -/
theorem expand_sites_exact (compilation : Compilation)
    (textual : compilation.Textual) (options : TreeOptions)
    (definition : compilation.Place) (path : List compilation.Place) :
    ∃ children,
      (compilation.expand options path
        (compilation.sites options definition)).outcome = .ok children ∧
      List.Forall₂ (compilation.Presents options definition)
        (Mention.firsts (compilation.mentions options definition)) children ∧
      (∀ target,
        (∃ child ∈ children,
          child.info.declaration = some (compilation.callable target)) ↔
        compilation.RefersTo definition target) ∧
      (children.filterMap CallNode.position?).Nodup ∧
      (∀ name, CallNode.unresolvedCall name ∈ children ↔
        ∃ node, TransGen Node.HasChild (compilation.node definition) node ∧
          compilation.Misses node name) ∧
      (children.filterMap CallNode.bareName?).Nodup ∧
      children.filter CallNode.isLowLevel =
        if options.includeLowLevel then
          (lowLevelKinds (compilation.callsBelow definition)).map
            CallNode.lowLevelCall
        else [] := by
  obtain ⟨children, expanded⟩ := exists_expand textual options path
    (stop_notMem_sites textual options definition)
  have shown := expand_eq_ok_iff.1 expanded
  have listed := forall₂_presents textual shown
  refine ⟨children, expanded, listed, ?_, ?_, ?_, ?_, ?_⟩
  · intro target
    rw [← target_mem_mentions_iff, ← Mention.mem_firsts]
    constructor
    · intro shownTarget
      obtain ⟨child, isChild, declared⟩ := shownTarget
      obtain ⟨mention, isMention, presents⟩ := exists_left_of_forall₂ listed isChild
      have placed := presents.position?_eq
      rw [CallNode.position?, declared] at placed
      rw [← Mention.eq_target_of_position? placed.symm]
      exact isMention
    · intro isMention
      obtain ⟨child, isChild, presents⟩ := exists_right_of_forall₂ listed isMention
      cases presents with
      | target declared => exact ⟨child, isChild, declared⟩
  · rw [filterMap_of_presents (fun _ _ => Presents.position?_eq) listed]
    exact Mention.nodup_positions_firsts _
  · intro name
    rw [← unresolved_mem_mentions_iff, ← Mention.mem_firsts]
    constructor
    · intro isChild
      obtain ⟨mention, isMention, presents⟩ := exists_left_of_forall₂ listed isChild
      rw [← Mention.eq_unresolved_of_name? presents.bareName?_eq.symm]
      exact isMention
    · intro isMention
      obtain ⟨child, isChild, presents⟩ := exists_right_of_forall₂ listed isMention
      cases presents with
      | unresolved => exact isChild
  · rw [filterMap_of_presents (fun _ _ => Presents.bareName?_eq) listed]
    exact Mention.nodup_names_firsts _
  · rw [filter_isLowLevel_of_forall₂ shown
      fun _ met => wellClassed_of_mem_sites met,
      filterMap_lowLevelKind?_sites textual]
    split
    · rfl
    · rfl

/-! ### A missing function beside a call -/

/-- `oracle.price()`, where `price` is declared outside the compilation. -/
def callPrice (id : Nat) : Sample :=
  .call id
    (.make .memberAccess (id + 1)
      [("memberName", .str "price"), ("referencedDeclaration", .int 77)]
      [("expression",
        .one (.identifier (id + 2) "oracle" "contract Oracle" none))] none [])

private theorem textual_callPrice (id : Nat) : (callPrice id).Textual := by
  apply Sample.textual_call
  apply Sample.textual_make
  · intro parent field listed
    exact ⟨⟨"", rfl⟩, ⟨"price", rfl⟩, ⟨"", rfl⟩, ⟨"", rfl⟩⟩
  · exact List.forall_mem_singleton.2 (Sample.textual_identifier _ _ _ _)

private theorem misses_callPrice (compilation : Compilation) (id : Nat) :
    compilation.Misses (inBody (callPrice id)) "price" := by
  have isCall : (inBody (callPrice id)).kind = .functionCall := rfl
  have called : (inBody (callPrice id)).callee? = some _ :=
    Node.callee?_of_memberAccess rfl rfl
  refine ⟨isCall, rfl, ⟨_, called, ⟨.int 77, 77, rfl, rfl, by decide⟩, rfl⟩,
    by decide, ?_⟩
  rw [referenced?, Node.referencedPosition?, if_pos isCall, called]
  rfl

/-- `function forward() { vault.deposit(); owner.transfer(); oracle.price();
oracle.price(); }` -/
def pricingBody : List Sample :=
  [callDeposit 3, callTransfer 6, callPrice 9, callPrice 12]

abbrev pricing : Compilation :=
  forwarding "payable" pricingBody

private theorem read_pricing :
    (Reading.read (Sample.file
      (forwardingUnits "payable" pricingBody))).outcome = .ok pricing :=
  (rfl)

private theorem textual_pricing : pricing.Textual := by
  apply textual_forwarding
  intro sample member
  simp only [pricingBody, List.mem_cons, List.not_mem_nil, or_false] at member
  rcases member with rfl | rfl | rfl | rfl
  · exact textual_callDeposit 3
  · exact textual_callTransfer 6
  · exact textual_callPrice 9
  · exact textual_callPrice 12

private theorem firsts_mentions_pricing (options : TreeOptions)
    (included : options.includeLowLevel = true) :
    Mention.firsts (pricing.mentions options (forward _ _)) =
      [.target (deposit _ _), .lowLevel .transfer, .unresolved "price"] := by
  have deposits :
      pricing.mention? options (forward _ _) (inBody (callDeposit 3)) =
        some (.target (deposit _ _)) :=
    mention?_eq_target_iff.2 ⟨by decide, rfl, pointsTo_callDeposit _ _ 3⟩
  have transfers :
      pricing.mention? options (forward _ _) (inBody (callTransfer 6)) =
        some (.lowLevel .transfer) := by
    have isCall : (inBody (callTransfer 6)).kind = .functionCall := rfl
    have isLowLevel : lowLevelKind (inBody (callTransfer 6)) =
        .ok (some .transfer) :=
      lowLevelKind_callTransfer 6 _ _ _
    rw [mention?, lowLevelSite, if_pos isCall, isLowLevel, included]
    rfl
  have prices : ∀ id,
      pricing.mention? options (forward _ _) (inBody (callPrice id)) =
        some (.unresolved "price") := by
    intro id
    exact mention?_eq_unresolved_iff.2 (misses_callPrice pricing id)
  have all : pricing.mentions options (forward _ _) =
      [.target (deposit _ _), .target (deposit _ _), .lowLevel .transfer,
        .unresolved "price", .unresolved "price"] := by
    rw [mentions, descendants_forward]
    change List.filterMap _ (inBody (callDeposit 3) :: _ :: _ ::
      inBody (callTransfer 6) :: _ :: _ :: inBody (callPrice 9) :: _ :: _ ::
      inBody (callPrice 12) :: _ :: _ :: []) = _
    simp only [List.filterMap_cons, deposits, transfers, prices]
    rfl
  rw [all]
  decide

theorem expand_pricing_lists_each_once :
    (Reading.read (Sample.file
        (forwardingUnits "payable" pricingBody))).outcome = .ok pricing ∧
      ∃ children child,
        (pricing.expand { ignorePrefixes := ["lib/"], includeLowLevel := true }
          [forward _ _] (pricing.sites
            { ignorePrefixes := ["lib/"], includeLowLevel := true }
            (forward _ _))).outcome = .ok children ∧
        children = [child, .lowLevelCall .transfer, .unresolvedCall "price"] ∧
        child.info.declaration = some (pricing.callable (deposit _ _)) ∧
        child.info.callType = .highLevel := by
  obtain ⟨children, expanded, listed, -⟩ :=
    expand_sites_exact pricing textual_pricing
      { ignorePrefixes := ["lib/"], includeLowLevel := true } (forward _ _)
      [forward _ _]
  rw [firsts_mentions_pricing _ rfl] at listed
  obtain ⟨child, others, presents, later, rfl⟩ :=
    List.forall₂_cons_left_iff.1 listed
  obtain ⟨second, others, presentsSecond, last, rfl⟩ :=
    List.forall₂_cons_left_iff.1 later
  obtain ⟨third, others, presentsThird, rest, rfl⟩ :=
    List.forall₂_cons_left_iff.1 last
  cases List.forall₂_nil_left_iff.1 rest
  cases presentsSecond
  cases presentsThird
  cases presents with
  | target declared reference called =>
      cases reference.unique (firstReference_of_pointsTo _
        (pointsTo_callDeposit _ _ 3))
      have classified := called rfl
      rw [classify_callDeposit] at classified
      refine ⟨read_pricing, _, child, expanded, rfl, declared, ?_⟩
      exact (congrArg Classification.callType
        (Except.ok.inj classified)).symm

end Compilation

end ContractAtlas
