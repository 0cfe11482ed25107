/-
Source texts of nodes.

A location counts bytes, and a content is a text of characters.  A location
whose start and length are the sizes of two neighbouring parts of the content
cuts exactly between characters, so the text of a node with such a location is
the second part.
-/

import ContractAtlas.Proofs.Source.Linearization
import ContractAtlas.Proofs.Text.Numerals
import ContractAtlas.Proofs.Text.Split
import ContractAtlas.Proofs.Text.Utf8
import ContractAtlas.Source.Excerpt

namespace ContractAtlas

/-! ### Locations -/

namespace Text

private theorem colon_notMem_toDigits (value : Nat) :
    ':' ∉ Nat.toDigits 10 value := by
  intro member
  have digit := isDigit_of_mem_toDigits value member
  cases digit

end Text

namespace Excerpt

open Text

/-- A location is two numbers and perhaps something behind a colon. -/
theorem span?_toDigits {start length : Nat}
    (startShort : start < 10 ^ decimalLimit)
    (lengthShort : length < 10 ^ decimalLimit) {rest : List Char}
    (ends : rest = [] ∨ ∃ more, rest = ':' :: more) :
    span? (Nat.toDigits 10 start ++ ':' :: (Nat.toDigits 10 length ++ rest)) =
      some ((start : Int), (length : Int)) := by
  obtain ⟨others, second⟩ : ∃ others,
      splitOn ':' (Nat.toDigits 10 length ++ rest) =
        Nat.toDigits 10 length :: others := by
    rcases ends with rfl | ⟨more, rfl⟩
    · rw [List.append_nil]
      exact ⟨[], splitOn_of_notMem (colon_notMem_toDigits length)⟩
    · exact ⟨_, splitOn_append (colon_notMem_toDigits length) more⟩
  rw [span?, splitOn_append (colon_notMem_toDigits start), second]
  dsimp only
  rw [readDecimal_toDigits startShort, readDecimal_toDigits lengthShort]
  rfl

private theorem cut_between (before inside after : String) :
    cut (before ++ inside ++ after).toList before.utf8ByteSize
      inside.utf8ByteSize = inside.toList := by
  have size (text : String) :
      text.utf8ByteSize = (Utf8.encode text.toList).length := by
    rw [Utf8.length_encode, String.ofList_toList]
  rw [cut, size, size, String.toList_append, String.toList_append,
    Utf8.slice_encode, Utf8.decodeLossy_encode]

private theorem textAt_between {before inside after rest : String}
    (counted : (before ++ inside ++ after).utf8ByteSize < 10 ^ decimalLimit)
    (ends : rest = "" ∨ ∃ more, rest = ":" ++ more) :
    textAt (before ++ inside ++ after)
        (.str (toString before.utf8ByteSize ++ ":" ++
          toString inside.utf8ByteSize ++ rest)) =
      .ok inside := by
  by_cases empty : before ++ inside ++ after = ""
  · have blank : inside = "" := by
      have noCharacters := congrArg String.toList empty
      simp only [String.toList_append, String.toList_empty,
        List.append_eq_nil_iff] at noCharacters
      exact String.toList_eq_nil_iff.1 noCharacters.1.2
    rw [textAt, empty, blank]
    rfl
  · have spelled : (toString before.utf8ByteSize ++ ":" ++
        toString inside.utf8ByteSize ++ rest).toList =
          Nat.toDigits 10 before.utf8ByteSize ++
            ':' :: (Nat.toDigits 10 inside.utf8ByteSize ++ rest.toList) := by
      simp only [String.toList_append, Nat.toString_eq_ofList_toDigits,
        String.toList_ofList, List.append_assoc]
      rfl
    have behind : rest.toList = [] ∨ ∃ more, rest.toList = ':' :: more := by
      rcases ends with rfl | ⟨more, rfl⟩
      · exact Or.inl rfl
      · exact Or.inr ⟨more.toList, by rw [String.toList_append]; rfl⟩
    rw [String.utf8ByteSize_append, String.utf8ByteSize_append] at counted
    have found := span?_toDigits
      (show before.utf8ByteSize < 10 ^ decimalLimit by omega)
      (show inside.utf8ByteSize < 10 ^ decimalLimit by omega) behind
    rw [← spelled] at found
    have given : (toString before.utf8ByteSize ++ ":" ++
        toString inside.utf8ByteSize ++ rest).isEmpty = false := by
      rw [Bool.eq_false_iff, ne_eq, String.isEmpty_iff,
        ← String.toList_eq_nil_iff, spelled]
      simp
    have notEmpty : (before ++ inside ++ after).isEmpty = false := by
      rw [Bool.eq_false_iff, ne_eq, String.isEmpty_iff]
      exact empty
    simp only [textAt, notEmpty, Json.isGiven, given, found, cut_between,
      Bool.not_false, Bool.not_true, Bool.or_false, Bool.false_eq_true,
      if_false, String.ofList_toList]

end Excerpt

/-! ### The unit of a node -/

/-- The nodes of a unit: its root, and what lies below it and in no other unit
inside. -/
inductive Node.Owns (root : Node) : Node → Prop
  | self : root.Owns root
  | child {above node : Node} (owned : root.Owns above)
      (isChild : node ∈ above.children) (notUnit : node.kind ≠ .sourceUnit) :
      root.Owns node

private theorem Node.sublist_preorderOfAll (nodes : List Node) :
    nodes.Sublist (preorderOfAll nodes) := by
  induction nodes with
  | nil => exact List.nil_sublist _
  | cons node rest inductionHypothesis =>
      cases node with
      | mk info children =>
          rw [preorderOfAll, preorder, List.cons_append]
          exact (inductionHypothesis.trans
            (List.sublist_append_right _ _)).cons_cons _

private theorem Node.le_position_of_mem {parent : Option Nat} {start : Nat}
    {nodes : List Node} {node : Node}
    (numbered : NumberedAll parent start nodes) (member : node ∈ nodes) :
    start ≤ node.info.position := by
  have visited := (sublist_preorderOfAll nodes).subset member
  have listed := List.mem_map_of_mem (f := fun node => node.info.position) visited
  rw [positions_preorderOfAll_of_numbered nodes numbered] at listed
  exact (List.mem_range'_1.1 listed).1

namespace Compilation

section

variable {compilation : Compilation} {nodes : List Node}
  (linked : compilation.LinkedFrom nodes)
include linked

private theorem LinkedFrom.parent_lt {node : Node}
    (visited : node ∈ compilation.visited)
    {parent : Nat} (inParent : node.info.parent = some parent) :
    parent < node.info.position := by
  rw [visited_eq_preorderOfAll] at visited
  rcases Node.mem_or_exists_parent visited with isRoot | ⟨above, around, isChild⟩
  · rw [Node.parent_of_mem linked.numbered isRoot] at inParent
    cases inParent
  · rw [Node.parent_of_mem_children linked.numbered around isChild] at inParent
    cases inParent
    obtain ⟨_, numberedAbove⟩ :=
      Node.exists_numbered_of_mem linked.numbered around
    exact Node.le_position_of_mem (Node.numberedAll_children numberedAbove)
      isChild

/-- What lies around a child is its parent and what lies around that. -/
theorem LinkedFrom.enclosing_of_child {above child : Node}
    (visited : above ∈ compilation.visited)
    (isChild : child ∈ above.children) :
    compilation.enclosing child = above :: compilation.enclosing above := by
  have around := visited
  rw [visited_eq_preorderOfAll] at around
  rw [enclosing, Node.parent_of_mem_children linked.numbered around isChild]
  dsimp only
  rw [enclosingFrom, linked.nodeAt?_of_mem visited]
  dsimp only
  cases inParent : above.info.parent with
  | none => rw [enclosing, inParent]
  | some parent =>
      dsimp only
      rw [if_pos (linked.parent_lt visited inParent), enclosing, inParent]

private theorem LinkedFrom.unitOf?_of_owns {root node : Node}
    (visited : root ∈ compilation.visited) (isUnit : root.kind = .sourceUnit)
    (owned : root.Owns node) :
    node ∈ compilation.visited ∧ compilation.unitOf? node = some root := by
  induction owned with
  | self => exact ⟨visited, by rw [unitOf?, if_pos isUnit]⟩
  | @child above node _ isChild notUnit inductionHypothesis =>
      obtain ⟨aboveVisited, found⟩ := inductionHypothesis
      refine ⟨mem_visited_child aboveVisited isChild, ?_⟩
      rw [unitOf?, if_neg notUnit, closestParent?,
        linked.enclosing_of_child aboveVisited isChild]
      by_cases aboveUnit : above.kind = .sourceUnit
      · rw [unitOf?, if_pos aboveUnit] at found
        rw [List.find?_cons_of_pos (by simpa using aboveUnit)]
        exact found
      · rw [unitOf?, if_neg aboveUnit, closestParent?] at found
        rw [List.find?_cons_of_neg (by simpa using aboveUnit)]
        exact found

private theorem LinkedFrom.contentOf_root {unit : SourceUnit}
    (member : unit ∈ compilation.units) :
    compilation.contentOf unit.root = unit.content := by
  have distinct : (compilation.units.map fun unit =>
      unit.root.info.position).Nodup := by
    have positions := Node.nodup_positions linked.numbered
    have roots := (Node.sublist_preorderOfAll
      (compilation.units.map fun unit => unit.root)).map fun node =>
        node.info.position
    rw [List.map_map] at roots
    exact positions.sublist roots
  rw [contentOf]
  cases found : compilation.units.find? fun other =>
      other.root.info.position == unit.root.info.position with
  | none =>
      have different := List.find?_eq_none.1 found unit member
      exact absurd (beq_self_eq_true _) different
  | some other =>
      have samePosition : other.root.info.position =
          unit.root.info.position := by
        simpa using List.find?_some found
      have same := List.inj_on_of_nodup_map distinct
        (List.mem_of_find?_eq_some found) member samePosition
      dsimp only
      rw [same]

end

/-- Linking keeps the kind of a tree. -/
theorem Becomes.kind {trees : List Node} {tree linked : Node}
    (becomes : Becomes trees tree linked) : linked.kind = tree.kind := by
  obtain ⟨start, -, succeeds⟩ := becomes
  cases tree with
  | mk info children =>
      rw [Node.number] at succeeds
      obtain ⟨changed, below, linkedInfo, -, rfl⟩ := Node.mapInfo_eq_ok succeeds
      exact (link_bases linkedInfo).1

end Compilation

namespace Reading

private theorem kind_of_read {output : Json} {compilation : Compilation}
    (accepted : (read output).outcome = .ok compilation) {unit : SourceUnit}
    (member : unit ∈ compilation.units) : unit.root.kind = .sourceUnit := by
  obtain ⟨contents, trees, units, built, succeeds⟩ :=
    exists_unitsOf_of_read accepted
  have made : compilation.OfTrees (units.map fun unit => unit.1) :=
    ⟨units, rfl, succeeds⟩
  obtain ⟨tree, isTree, becomes⟩ := exists_left_of_forall₂ made.becomes
    (List.mem_map_of_mem (f := fun unit => unit.root) member)
  obtain ⟨source, isSource, rfl⟩ := List.mem_map.1 isTree
  obtain ⟨entry, -, isUnit⟩ :=
    exists_left_of_forall₂ (unitsOf_eq_ok_iff.1 built) isSource
  rw [becomes.kind]
  exact (unitOf_eq_ok_iff_built.1 isUnit).2.1

/-- The text of a node is the part of the content that its location counts off:
if the content of its unit has three parts and the location gives the sizes of
the first two in bytes, the text is the second part, whichever characters the
parts are made of.  The numbers of a location are read up to 4300 digits, which
is more than the size of any content takes. -/
theorem sourceText_between_parts {output : Json} {compilation : Compilation}
    (accepted : (read output).outcome = .ok compilation) {unit : SourceUnit}
    (member : unit ∈ compilation.units) {before inside after : String}
    (content : unit.content = before ++ inside ++ after)
    (counted : unit.content.utf8ByteSize < 10 ^ Text.decimalLimit) {node : Node}
    (owned : unit.root.Owns node) {rest : String}
    (ends : rest = "" ∨ ∃ more, rest = ":" ++ more)
    (located : node.src =
      .str (toString before.utf8ByteSize ++ ":" ++
        toString inside.utf8ByteSize ++ rest)) :
    compilation.sourceText node = .ok inside := by
  obtain ⟨units, succeeds⟩ := exists_ofUnits_of_read accepted
  have linked := Compilation.linkedFrom_of_ofUnits succeeds
  have visited : unit.root ∈ compilation.visited := by
    rw [Compilation.visited_eq_preorderOfAll]
    exact (Node.sublist_preorderOfAll _).subset
      (List.mem_map_of_mem (f := fun unit => unit.root) member)
  obtain ⟨-, found⟩ :=
    linked.unitOf?_of_owns visited (kind_of_read accepted member) owned
  rw [content] at counted
  rw [Compilation.sourceText, found]
  dsimp only
  rw [linked.contentOf_root member, content, located]
  exact Excerpt.textAt_between counted ends

/-! ### A contract between characters of several bytes -/

def accentedSource : Json :=
  sourceFile "a.sol" "ü\nx😀éß"
    (unitObject 1
      [nodeObject "ContractDefinition" (.int 2) [("src", .str "3:7:0")]])

theorem sourceText_of_accentedUnit :
    ∃ compilation unit node,
      (read accentedSource).outcome = .ok compilation ∧
      unit ∈ compilation.units ∧ unit.content = "ü\nx😀éß" ∧
      unit.root.Owns node ∧ node.src = .str "3:7:0" ∧
      compilation.sourceText node = .ok "x😀é" := by
  obtain ⟨compilation, unit, node, accepted, units, content, children, kind,
      located⟩ :
      ∃ compilation unit node,
        (read accentedSource).outcome = .ok compilation ∧
        compilation.units = [unit] ∧ unit.content = "ü\nx😀éß" ∧
        unit.root.children = [node] ∧ node.kind = .contractDefinition ∧
        node.src = .str "3:7:0" :=
    ⟨_, _, _, rfl, rfl, rfl, rfl, rfl, rfl⟩
  have member : unit ∈ compilation.units := by
    rw [units]
    exact List.mem_singleton_self unit
  have owned : unit.root.Owns node := by
    apply Node.Owns.child .self
    · rw [children]
      exact List.mem_singleton_self node
    · rw [kind]
      decide
  have counted : unit.content.utf8ByteSize < 10 ^ Text.decimalLimit := by
    have small : unit.content.utf8ByteSize < 10 ^ 2 := by
      rw [content]
      decide
    exact Nat.lt_of_lt_of_le small
      (Nat.pow_le_pow_right (by decide) (by decide))
  have parts : unit.content = "ü\n" ++ "x😀é" ++ "ß" := by
    rw [content]
    decide
  have spelled : node.src =
      .str (toString "ü\n".utf8ByteSize ++ ":" ++
        toString "x😀é".utf8ByteSize ++ ":0") := by
    rw [located]
    exact congrArg Json.str (by decide)
  exact ⟨compilation, unit, node, accepted, member, content, owned, located,
    sourceText_between_parts accepted member parts counted owned
      (Or.inr ⟨"0", by decide⟩) spelled⟩

end Reading

end ContractAtlas
