/-
Compilations whose names, paths and type texts are text.

An attribute may have any shape, and one that is used as text although it is
none stops the walk over calls.  In a compilation where these attributes are
text wherever they are given, every call can be classified and every path can
be compared with a list of prefixes.
-/

import ContractAtlas.Call.Expansion
import ContractAtlas.Proofs.Source.Samples
import ContractAtlas.Proofs.Source.Traversal

namespace ContractAtlas

open Relation

def Json.IsText (value : Json) : Prop :=
  ∃ text, value = .str text

theorem Json.isText_iff {value : Json} {text : String} :
    value.isText text = true ↔ value = .str text := by
  cases value with
  | str other => simp [isText]
  | _ => simp [isText]

namespace Node

/-- The names, the path and the type of a node are text where given. -/
structure Textual (node : Node) : Prop where
  name : node.name.IsText
  memberName : node.memberName.IsText
  path : (node.textOr "absolutePath" "").IsText
  type : ∃ text, node.typeStringOrEmpty = .ok (.str text)

/-- A node and all nodes below it are textual. -/
def TextualBelow (node : Node) : Prop :=
  ∀ other ∈ node.walk, other.Textual

theorem TextualBelow.self {node : Node} (textual : node.TextualBelow) :
    node.Textual :=
  textual node (mem_walk_iff.2 .refl)

private theorem TextualBelow.of_below {node other : Node}
    (textual : node.TextualBelow) (below : ReflTransGen HasChild node other) :
    other.TextualBelow := by
  intro last member
  exact textual last (mem_walk_iff.2 (below.trans (mem_walk_iff.1 member)))

theorem TextualBelow.of_mem_descendants {node other : Node}
    (textual : node.TextualBelow) (member : other ∈ node.descendants) :
    other.TextualBelow :=
  textual.of_below (mem_descendants_iff.1 member).to_reflTransGen

private theorem textualBelow_of_children {node : Node} (own : node.Textual)
    (below : ∀ child ∈ node.children, child.TextualBelow) :
    node.TextualBelow := by
  intro other member
  rcases ReflTransGen.cases_head (mem_walk_iff.1 member) with
    rfl | ⟨child, isChild, rest⟩
  · exact own
  · exact below child isChild other (mem_walk_iff.2 rest)

/-- The member names and the types of a node and of all nodes below it are text
where given, which is all that the class of a call depends on. -/
def LegibleBelow (node : Node) : Prop :=
  ∀ other ∈ node.walk, other.memberName.IsText ∧
    ∃ text, other.typeStringOrEmpty = .ok (.str text)

theorem TextualBelow.legible {node : Node} (textual : node.TextualBelow) :
    node.LegibleBelow := by
  intro other member
  exact ⟨(textual other member).memberName, (textual other member).type⟩

theorem LegibleBelow.self {node : Node} (legible : node.LegibleBelow) :
    node.memberName.IsText ∧
      ∃ text, node.typeStringOrEmpty = .ok (.str text) :=
  legible node (mem_walk_iff.2 .refl)

private theorem LegibleBelow.of_below {node other : Node}
    (legible : node.LegibleBelow) (below : ReflTransGen HasChild node other) :
    other.LegibleBelow := by
  intro last member
  exact legible last (mem_walk_iff.2 (below.trans (mem_walk_iff.1 member)))

end Node

namespace Compilation

def Textual (compilation : Compilation) : Prop :=
  ∀ place, (compilation.node place).TextualBelow

def Legible (compilation : Compilation) : Prop :=
  ∀ place, (compilation.node place).LegibleBelow

theorem Textual.legible {compilation : Compilation}
    (textual : compilation.Textual) : compilation.Legible :=
  fun place => (textual place).legible

/-! ### Classes of calls -/

theorem exists_lowLevelKind {call : Node} (legible : call.LegibleBelow) :
    ∃ kind, lowLevelKind call = .ok kind := by
  unfold lowLevelKind
  split
  · exact ⟨none, rfl⟩
  · next callee found =>
      obtain ⟨member, named⟩ :=
        (legible.of_below (Node.below_of_callee? found)).self.1
      rw [named]
      split
      · dsimp only
        split
        · exact ⟨none, rfl⟩
        · split
          · exact ⟨none, rfl⟩
          · exact ⟨some _, rfl⟩
      · exact ⟨none, rfl⟩

theorem exists_lowLevelSite {node : Node} (textual : node.TextualBelow) :
    ∃ kind, lowLevelSite node = .ok kind := by
  unfold lowLevelSite
  split
  · exact exists_lowLevelKind textual.legible
  · exact ⟨none, rfl⟩

private theorem exists_receiverType {callee : Node}
    (legible : callee.LegibleBelow) :
    ∃ type, receiverType callee.expression? = .ok type := by
  cases found : callee.expression? with
  | none => exact ⟨[], rfl⟩
  | some receiver =>
      have below : ReflTransGen Node.HasChild callee receiver :=
        .single (Node.hasChild_of_field? found)
      obtain ⟨text, typed⟩ := (legible.of_below below).self.2
      exact ⟨text.toList, by rw [receiverType, typed]⟩

theorem exists_route (compilation : Compilation) (noStatic : Bool)
    {call : Node} (legible : call.LegibleBelow) :
    ∃ route, compilation.route noStatic call = .ok route := by
  unfold route
  split
  · exact ⟨.inside, rfl⟩
  · next callee found =>
      obtain ⟨type, typed⟩ :=
        exists_receiverType (legible.of_below (Node.below_of_callee? found))
      rw [typed]
      split
      · exact ⟨.inside, rfl⟩
      · dsimp only
        split
        · exact ⟨.library _, rfl⟩
        · split
          · exact ⟨.outside, rfl⟩
          · exact ⟨.inside, rfl⟩

variable {compilation : Compilation}

theorem legibleBelow_of_mem_callsBelow (legible : compilation.Legible)
    {place : compilation.Place} {call : Node}
    (member : call ∈ compilation.callsBelow place) : call.LegibleBelow := by
  have below := Node.mem_descendants_iff.1 (List.mem_filter.1 member).1
  exact (legible place).of_below below.to_reflTransGen

theorem exists_anyExternal (legible : compilation.Legible) (noStatic : Bool)
    (visited : List compilation.Place) (calls : List Node)
    (allLegible : ∀ call ∈ calls, call.LegibleBelow) :
    ∃ answer, compilation.anyExternal noStatic visited calls = .ok answer := by
  fun_induction anyExternal compilation noStatic visited calls with
  | case1 visited => exact ⟨false, rfl⟩
  | case2 visited call rest fault failed =>
      obtain ⟨kind, found⟩ :=
        exists_lowLevelKind (allLegible call List.mem_cons_self)
      rw [failed] at found
      cases found
  | case3 => exact ⟨true, rfl⟩
  | case4 visited call rest plain fault failed =>
      obtain ⟨route, found⟩ := compilation.exists_route noStatic
        (allLegible call List.mem_cons_self)
      rw [failed] at found
      cases found
  | case5 => exact ⟨true, rfl⟩
  | case6 visited call rest plain inside restHypothesis =>
      exact restHypothesis (List.forall_mem_cons.1 allLegible).2
  | case7 visited call rest plain target routed fresh fault failed
      targetHypothesis =>
      obtain ⟨answer, found⟩ := targetHypothesis
        fun call member => legibleBelow_of_mem_callsBelow legible member
      rw [failed] at found
      cases found
  | case8 => exact ⟨true, rfl⟩
  | case9 visited call rest plain target routed fresh stays targetHypothesis
      restHypothesis =>
      exact restHypothesis (List.forall_mem_cons.1 allLegible).2
  | case10 visited call rest plain target routed stale restHypothesis =>
      exact restHypothesis (List.forall_mem_cons.1 allLegible).2

theorem exists_isHighLevel (legible : compilation.Legible) (noStatic : Bool)
    {call : Node} (callLegible : call.LegibleBelow) :
    ∃ answer, compilation.isHighLevel noStatic call = .ok answer := by
  obtain ⟨route, routed⟩ := compilation.exists_route noStatic callLegible
  unfold isHighLevel
  rw [routed]
  cases route with
  | inside => exact ⟨false, rfl⟩
  | outside => exact ⟨true, rfl⟩
  | library target =>
      dsimp only
      unfold forwards
      split
      · exact exists_anyExternal legible noStatic [target] _
          fun call member => legibleBelow_of_mem_callsBelow legible member
      · exact ⟨false, rfl⟩

theorem exists_classifyReference (textual : compilation.Textual)
    (noStatic : Bool) {node : Node} (nodeTextual : node.TextualBelow) :
    ∃ classification,
      compilation.classifyReference noStatic node = .ok classification := by
  obtain ⟨kind, found⟩ := exists_lowLevelKind nodeTextual.legible
  obtain ⟨answer, answered⟩ :=
    exists_isHighLevel textual.legible noStatic nodeTextual.legible
  unfold classifyReference classify
  rw [found, answered]
  split
  · cases kind with
    | some kind => exact ⟨_, rfl⟩
    | none =>
        cases answer with
        | true => exact ⟨_, rfl⟩
        | false => exact ⟨_, rfl⟩
  · exact ⟨_, rfl⟩

/-! ### Names and paths -/

theorem unresolvedName_of_textual {node : Node}
    (textual : node.TextualBelow) :
    unresolvedName node = .null ∨ ∃ name, unresolvedName node = .str name := by
  unfold unresolvedName
  split
  · split
    · next callee found =>
        have calleeTextual :=
          (textual.of_below (Node.below_of_callee? found)).self
        split
        · split
          · exact Or.inr calleeTextual.memberName
          · exact Or.inr calleeTextual.name
        · exact Or.inl rfl
    · exact Or.inl rfl
  · exact Or.inl rfl

theorem exists_unresolvedName_key {node : Node} (textual : node.TextualBelow) :
    ∃ key, (unresolvedName node).key? = some key := by
  rcases unresolvedName_of_textual textual with isNull | ⟨name, named⟩
  · rw [isNull]
    exact ⟨.null, rfl⟩
  · rw [named]
    exact ⟨.text name, rfl⟩

private theorem exists_place_of_nodeAt? {position : Nat} {node : Node}
    (found : compilation.nodeAt? position = some node) :
    ∃ place, compilation.node place = node := by
  obtain ⟨inside, sameNode⟩ := Array.getElem?_eq_some_iff.1 found
  exact ⟨⟨position, inside⟩, sameNode⟩

/-- The nodes around a position are nodes of the compilation. -/
theorem exists_place_of_mem_enclosingFrom {position : Nat} {node : Node}
    (member : node ∈ compilation.enclosingFrom position) :
    ∃ place, compilation.node place = node := by
  fun_induction enclosingFrom compilation position with
  | case1 => cases member
  | case2 position first found parent isParent before inductionHypothesis =>
      rcases List.mem_cons.1 member with rfl | further
      · exact exists_place_of_nodeAt? found
      · exact inductionHypothesis further
  | case3 position first found =>
      rw [List.mem_singleton.1 member]
      exact exists_place_of_nodeAt? found
  | case4 position first found =>
      rw [List.mem_singleton.1 member]
      exact exists_place_of_nodeAt? found

private theorem exists_place_of_unitOf? {place : compilation.Place}
    {unit : Node}
    (found : compilation.unitOf? (compilation.node place) = some unit) :
    ∃ other, compilation.node other = unit := by
  unfold unitOf? at found
  split at found
  · exact ⟨place, Option.some.inj found⟩
  · have member := List.mem_of_find?_eq_some found
    unfold enclosing at member
    split at member
    · exact exists_place_of_mem_enclosingFrom member
    · cases member

theorem exists_pathOf (textual : compilation.Textual)
    (place : compilation.Place) :
    ∃ path, compilation.pathOf (compilation.node place) = .str path := by
  unfold pathOf
  split
  · next unit found =>
      obtain ⟨other, rfl⟩ := exists_place_of_unitOf? found
      exact (textual other).self.path
  · exact ⟨"", rfl⟩

theorem unitOf?_of_parent {node unit : Node} {position : Nat}
    (notUnit : node.kind ≠ .sourceUnit)
    (below : node.info.parent = some position)
    (found : compilation.nodeAt? position = some unit)
    (isUnit : unit.kind = .sourceUnit) :
    compilation.unitOf? node = some unit := by
  have closest : (compilation.enclosingFrom position).head? = some unit := by
    rw [enclosingFrom, found]
    dsimp only
    split
    · split
      · rfl
      · rfl
    · rfl
  obtain ⟨further, enclosed⟩ := List.head?_eq_some_iff.1 closest
  rw [unitOf?, if_neg notUnit, closestParent?, enclosing, below]
  dsimp only
  rw [enclosed]
  exact List.find?_cons_of_pos (by simpa using isUnit)

theorem pathOf_of_unitOf? {node unit : Node}
    (found : compilation.unitOf? node = some unit) :
    compilation.pathOf node = unit.textOr "absolutePath" "" := by
  rw [pathOf, found]

end Compilation

/-! ### Samples -/

namespace Sample

/-- Wherever the sample is held, its node and all nodes below it are textual. -/
def Textual (sample : Sample) : Prop :=
  ∀ parent field listed, (sample.node parent field listed).TextualBelow

theorem textual_make {kind : Kind} {id : Nat} {attributes : List (String × Json)}
    {held : List (String × Held)} {target : Option Nat} {bases : List Nat}
    (own : ∀ parent field listed,
      ((make kind id attributes held target bases).node parent field
        listed).Textual)
    (below : ∀ sample ∈ held.flatMap fun entry => entry.2.samples,
      sample.Textual) :
    (make kind id attributes held target bases).Textual := by
  intro parent field listed
  apply Node.textualBelow_of_children (own parent field listed)
  intro child isChild
  obtain ⟨entry, isHeld, isNode⟩ := List.mem_flatMap.1 isChild
  obtain ⟨sample, isSample, rfl⟩ := List.mem_map.1 isNode
  exact below sample (List.mem_flatMap.2 ⟨entry, isHeld, isSample⟩) _ _ _

theorem textual_identifier (id : Nat) (name type : String)
    (target : Option Nat) : (identifier id name type target).Textual := by
  have spelled : ∃ text, (Json.str type).givenOr (.str "") = .str text := by
    rw [Json.givenOr]
    split
    · exact ⟨type, rfl⟩
    · exact ⟨"", rfl⟩
  obtain ⟨text, spelled⟩ := spelled
  apply textual_make
  · intro parent field listed
    exact ⟨⟨name, rfl⟩, ⟨"", rfl⟩, ⟨"", rfl⟩, text, congrArg Except.ok spelled⟩
  · intro sample isSample
    cases isSample

theorem textual_member (id : Nat) (name : String) (target : Option Nat)
    {receiver : Sample} (textual : receiver.Textual) :
    (member id name target receiver).Textual := by
  apply textual_make
  · intro parent field listed
    exact ⟨⟨"", rfl⟩, ⟨name, rfl⟩, ⟨"", rfl⟩, ⟨"", rfl⟩⟩
  · exact List.forall_mem_singleton.2 textual

theorem textual_call (id : Nat) {callee : Sample} (textual : callee.Textual) :
    (call id callee).Textual := by
  apply textual_make
  · intro parent field listed
    exact ⟨⟨"", rfl⟩, ⟨"", rfl⟩, ⟨"", rfl⟩, ⟨"", rfl⟩⟩
  · exact List.forall_mem_singleton.2 textual

theorem textual_function (id : Nat) (name mutability : String)
    {body : List Sample} (textual : ∀ sample ∈ body, sample.Textual) :
    (function id name mutability body).Textual := by
  apply textual_make
  · intro parent field listed
    exact ⟨⟨name, rfl⟩, ⟨"", rfl⟩, ⟨"", rfl⟩, ⟨"", rfl⟩⟩
  · rw [List.flatMap_singleton]
    exact textual

theorem textual_unit (id : Nat) (path : String) {nodes : List Sample}
    (textual : ∀ sample ∈ nodes, sample.Textual) :
    (unit id (.str path) nodes).Textual := by
  apply textual_make
  · intro parent field listed
    exact ⟨⟨"", rfl⟩, ⟨"", rfl⟩, ⟨path, rfl⟩, ⟨"", rfl⟩⟩
  · rw [List.flatMap_singleton]
    exact textual

theorem textual_compilation {units : List (String × Sample)}
    (textual : ∀ entry ∈ units, entry.2.Textual) :
    (compilation units).Textual := by
  intro place
  have member : (compilation units).node place ∈
      Node.preorderOfAll (roots units) :=
    List.getElem_mem _
  rw [← Node.visit_eq_preorderOfAll, Node.mem_visit_iff] at member
  obtain ⟨root, isRoot, below⟩ := member
  obtain ⟨entry, isEntry, rfl⟩ := List.mem_map.1 isRoot
  exact (textual entry isEntry none "" false).of_below below

end Sample

namespace Compilation

/-! ### A cycle of two functions -/

/-- `function ping() { pong; }` and `function pong() { ping; }` -/
def pingPongUnits : List (String × Sample) :=
  [("src/Game.sol",
    .unit 0 (.str "src/Game.sol")
      [.function 1 "ping" "nonpayable" [.identifier 2 "pong" "" (some 3)],
        .function 3 "pong" "nonpayable" [.identifier 4 "ping" "" (some 1)]])]

def pingPong : Compilation :=
  Sample.compilation pingPongUnits

def ping : pingPong.Place :=
  ⟨1, by decide⟩

def pong : pingPong.Place :=
  ⟨3, by decide⟩

theorem read_pingPong :
    (Reading.read (Sample.file pingPongUnits)).outcome = .ok pingPong :=
  (rfl)

theorem textual_pingPong : pingPong.Textual := by
  apply Sample.textual_compilation
  refine List.forall_mem_singleton.2 (Sample.textual_unit _ _ ?_)
  refine List.forall_mem_cons.2 ⟨?_, List.forall_mem_singleton.2 ?_⟩
  · exact Sample.textual_function _ _ _
      (List.forall_mem_singleton.2 (Sample.textual_identifier _ _ _ _))
  · exact Sample.textual_function _ _ _
      (List.forall_mem_singleton.2 (Sample.textual_identifier _ _ _ _))

theorem pathOf_ping :
    pingPong.pathOf (pingPong.node ping) = .str "src/Game.sol" :=
  (pathOf_of_unitOf? (unitOf?_of_parent (by decide) rfl rfl rfl)).trans rfl

theorem pathOf_pong :
    pingPong.pathOf (pingPong.node pong) = .str "src/Game.sol" :=
  (pathOf_of_unitOf? (unitOf?_of_parent (by decide) rfl rfl rfl)).trans rfl

end Compilation

end ContractAtlas
