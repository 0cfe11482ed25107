/-
Outlines of call trees.

An outline has one line for each node, in the order of a walk, and shows the
shape of the tree only by the blanks before the labels.  These can be read
back: they give the depth of each line, and the lines below a node are those up
to the next line that is not deeper.
-/

import ContractAtlas.Proofs.Call.Walk
import ContractAtlas.Proofs.Text.Split

namespace ContractAtlas.CallNode

open Traversal (nodeAt?)

/-- The name of a node after that of its contract. -/
def qualifiedName (node : CallNode) : String :=
  if node.contractName.value.isGiven then
    node.contractName.value.spelling ++ "." ++ node.name.spelling
  else node.name.spelling

/-- What follows the name of a node. -/
def marks (info : CallInfo) : String :=
  marker info ++ if info.recursive then " (recursive)" else ""

def parts (node : CallNode) : String × String × Bool :=
  (node.qualifiedName, marker node.info, node.info.recursive)

/-- A node whose label stays on one line and starts where the line is
indented to. -/
structure FitsLine (node : CallNode) : Prop where
  name : '\n' ∉ node.name.spelling.toList
  contract : '\n' ∉ node.contractName.value.spelling.toList
  flush : node.outlineLabel.toList.head? ≠ some ' '

instance (node : CallNode) : Decidable node.FitsLine :=
  decidable_of_iff
    ('\n' ∉ node.name.spelling.toList ∧
      '\n' ∉ node.contractName.value.spelling.toList ∧
      node.outlineLabel.toList.head? ≠ some ' ')
    ⟨fun fits => ⟨fits.1, fits.2.1, fits.2.2⟩,
      fun fits => ⟨fits.name, fits.contract, fits.flush⟩⟩

/-! ### Labels -/

private theorem outlineLabel_eq (node : CallNode) :
    node.outlineLabel = node.qualifiedName ++ marks node.info :=
  String.append_assoc

def markers : List String :=
  ["", " [high-level]", " [low-level]", " [low-level call]",
    " [low-level staticcall]", " [low-level delegatecall]", " [low-level send]",
    " [low-level transfer]"]

private theorem marker_mem_markers (info : CallInfo) :
    marker info ∈ markers := by
  rw [marker]
  cases info.lowLevel with
  | some kind =>
      dsimp only
      cases kind <;> decide
  | none =>
      dsimp only
      cases info.callType <;> decide

/-- A marker stays on the line, stands behind a blank and is not in round
brackets. -/
theorem marker_fits (info : CallInfo) :
    '\n' ∉ (marker info).toList ∧ '(' ∉ (marker info).toList ∧
      ((marker info).toList.head? = none ∨
        (marker info).toList.head? = some ' ') := by
  have each : ∀ text ∈ markers, '\n' ∉ text.toList ∧ '(' ∉ text.toList ∧
      (text.toList.head? = none ∨ text.toList.head? = some ' ') := by
    decide
  exact each (marker info) (marker_mem_markers info)

private theorem notMem_marks (info : CallInfo) : '\n' ∉
    (marks info).toList := by
  rw [marks, String.toList_append, List.mem_append, not_or]
  refine ⟨(marker_fits info).1, ?_⟩
  cases info.recursive with
  | false => decide
  | true => decide

private theorem FitsLine.notMem_outlineLabel {node : CallNode}
    (fits : node.FitsLine) :
    '\n' ∉ node.outlineLabel.toList := by
  rw [outlineLabel_eq, String.toList_append, List.mem_append, not_or]
  refine ⟨?_, notMem_marks node.info⟩
  rw [qualifiedName]
  split
  · rw [String.toList_append, String.toList_append, List.mem_append,
      List.mem_append, not_or, not_or]
    exact ⟨⟨fits.contract, by decide⟩, fits.name⟩
  · exact fits.name

private theorem head?_marks (info : CallInfo) :
    ∀ c ∈ (marks info).toList.head?, decide (c ≠ ' ') = false := by
  intro c isNext
  rw [marks, String.toList_append, List.head?_append] at isNext
  rcases (marker_fits info).2.2 with empty | blank
  · rw [empty, Option.none_or] at isNext
    cases recursive : info.recursive with
    | false =>
        rw [recursive] at isNext
        cases isNext
    | true =>
        rw [recursive] at isNext
        cases isNext
        rfl
  · rw [blank, Option.some_or] at isNext
    cases isNext
    rfl

private theorem recursive_iff_mem_marks (info : CallInfo) :
    info.recursive = true ↔ '(' ∈ (marks info).toList := by
  rw [marks, String.toList_append, List.mem_append,
    or_iff_right (marker_fits info).2.1]
  cases info.recursive with
  | false => decide
  | true => decide

private theorem marks_inj {left right : CallInfo}
    (same : marks left = marks right) :
    marker left = marker right ∧ left.recursive = right.recursive := by
  have sameRecursive : left.recursive = right.recursive := by
    rw [Bool.eq_iff_iff, recursive_iff_mem_marks, recursive_iff_mem_marks, same]
  rw [marks, marks, sameRecursive] at same
  exact ⟨(String.append_left_inj _).1 same, sameRecursive⟩

/-- A label whose name has no blanks tells its parts apart. -/
theorem parts_of_outlineLabel {left right : CallNode}
    (leftWord : ' ' ∉ left.qualifiedName.toList)
    (rightWord : ' ' ∉ right.qualifiedName.toList)
    (same : left.outlineLabel = right.outlineLabel) :
    left.parts = right.parts := by
  have nameOf : ∀ node : CallNode, ' ' ∉ node.qualifiedName.toList →
      node.outlineLabel.toList.takeWhile (fun c => decide (c ≠ ' ')) =
        node.qualifiedName.toList := by
    intro node word
    rw [outlineLabel_eq, String.toList_append]
    refine (Text.span_append ?_ (head?_marks node.info)).1
    intro c member
    exact decide_eq_true fun blank => word (blank ▸ member)
  have sameName : left.qualifiedName = right.qualifiedName := by
    rw [← String.toList_inj, ← nameOf left leftWord, same, nameOf right rightWord]
  rw [outlineLabel_eq, outlineLabel_eq, sameName, String.append_right_inj] at same
  obtain ⟨sameMarker, sameRecursive⟩ := marks_inj same
  rw [parts, parts, sameName, sameMarker, sameRecursive]

/-! ### Lines with their depths -/

mutual

/-- The depth and the label of each line of an outline. -/
def levels (depth : Int) : CallNode → List (Int × String)
  | mk info children =>
      (depth, outlineLabel (mk info [])) :: levelsOfAll (depth + 1) children

def levelsOfAll (depth : Int) : List CallNode → List (Int × String)
  | [] => []
  | node :: rest => levels depth node ++ levelsOfAll depth rest

end

private theorem levels_eq (depth : Int) (node : CallNode) :
    levels depth node =
      (depth, node.outlineLabel) :: levelsOfAll (depth + 1) node.children := by
  cases node with
  | mk info children =>
      rw [levels]
      rfl

theorem levelsOfAll_cons (depth : Int) (node : CallNode)
    (rest : List CallNode) :
    levelsOfAll depth (node :: rest) =
      (depth, node.outlineLabel) ::
        (levelsOfAll (depth + 1) node.children ++ levelsOfAll depth rest) := by
  rw [levelsOfAll, levels_eq, List.cons_append]

theorem levelsOfAll_singleton (depth : Int) (node : CallNode) :
    levelsOfAll depth [node] = levels depth node := by
  rw [levelsOfAll, levelsOfAll, List.append_nil]

private theorem map_snd_levelsOfAll (depth : Int) (forest : List CallNode) :
    (levelsOfAll depth forest).map Prod.snd =
      (visit forest).map outlineLabel := by
  induction forest using isVisit.forest_induction generalizing depth with
  | nil => rw [levelsOfAll, visit, List.map_nil, List.map_nil]
  | cons node rest below later =>
      rw [levelsOfAll_cons, visit_cons, walk_eq_cons, List.cons_append,
        List.map_cons, List.map_cons, List.map_append, List.map_append,
        later depth, below (depth + 1)]

private theorem le_of_mem_levelsOfAll {depth : Int} {forest : List CallNode}
    {entry : Int × String} (member : entry ∈ levelsOfAll depth forest) :
    depth ≤ entry.1 := by
  induction forest using isVisit.forest_induction generalizing depth with
  | nil =>
      rw [levelsOfAll] at member
      cases member
  | cons node rest below later =>
      rw [levelsOfAll_cons, List.mem_cons, List.mem_append] at member
      rcases member with rfl | isBelow | isLater
      · exact Int.le_refl depth
      · have deeper := below isBelow
        omega
      · exact later isLater

/-- A label behind the blanks of its depth. -/
def line (entry : Int × String) : String :=
  indentation entry.1 ++ entry.2

private theorem outlineLinesOfAll_eq (depth : Int) (forest : List CallNode) :
    outlineLinesOfAll depth forest = (levelsOfAll depth forest).map line := by
  induction forest using isVisit.forest_induction generalizing depth with
  | nil => rw [outlineLinesOfAll, levelsOfAll, List.map_nil]
  | cons node rest below later =>
      cases node with
      | mk info children =>
          rw [outlineLinesOfAll, outlineLines, later, levelsOfAll_cons,
            List.map_cons, List.map_append, ← below]
          rfl

private theorem outline_eq (root : CallNode) (indent : Int) :
    root.outline indent =
      "\n".intercalate ((root.levels indent).map line) := by
  rw [outline, ← levelsOfAll_singleton, ← outlineLinesOfAll_eq,
    outlineLinesOfAll, outlineLinesOfAll, List.append_nil]

/-! ### Reading outlines -/

/-- The depth and the label of a line. -/
def readLine (text : List Char) : Int × String :=
  (((text.takeWhile fun c => decide (c = ' ')).length / 2 : Nat),
    String.ofList (text.dropWhile fun c => decide (c = ' ')))

def readOutline (text : String) : List (Int × String) :=
  (text.toList.splitOn '\n').map readLine

private theorem readLine_replicate (depth : Nat) {label : List Char}
    (flush : label.head? ≠ some ' ') :
    readLine (List.replicate (2 * depth) ' ' ++ label) =
      ((depth : Int), String.ofList label) := by
  have blanks : ∀ c ∈ List.replicate (2 * depth) ' ', decide (c = ' ') = true := by
    intro c member
    exact decide_eq_true (List.eq_of_mem_replicate member)
  have ends : ∀ c ∈ label.head?, decide (c = ' ') = false := by
    intro c isNext
    exact decide_eq_false fun blank => flush (blank ▸ isNext)
  obtain ⟨taken, dropped⟩ := Text.span_append blanks ends
  rw [readLine, taken, dropped, List.length_replicate,
    Nat.mul_div_cancel_left depth Nat.two_pos]

private theorem readLine_line {entry : Int × String} (nonnegative : 0 ≤ entry.1)
    (flush : entry.2.toList.head? ≠ some ' ') :
    readLine (line entry).toList = entry := by
  rw [line, indentation, String.toList_append, String.toList_ofList,
    readLine_replicate _ flush, Int.toNat_of_nonneg nonnegative,
    String.ofList_toList]

private theorem notMem_line {entry : Int × String}
    (oneLine : '\n' ∉ entry.2.toList) :
    '\n' ∉ (line entry).toList := by
  rw [line, indentation, String.toList_append, String.toList_ofList,
    List.mem_append, not_or]
  refine ⟨?_, oneLine⟩
  intro member
  cases List.eq_of_mem_replicate member

private theorem fits_of_mem_levels {root : CallNode} {indent : Int}
    (fits : ∀ node ∈ root.walk, node.FitsLine) {entry : Int × String}
    (member : entry ∈ root.levels indent) :
    '\n' ∉ entry.2.toList ∧ entry.2.toList.head? ≠ some ' ' := by
  have shown : entry.2 ∈ root.walk.map outlineLabel := by
    rw [walk, ← map_snd_levelsOfAll indent, levelsOfAll_singleton]
    exact List.mem_map_of_mem member
  obtain ⟨node, isNode, label⟩ := List.mem_map.1 shown
  rw [← label]
  exact ⟨(fits node isNode).notMem_outlineLabel, (fits node isNode).flush⟩

private theorem readOutline_outline {root : CallNode} {indent : Int}
    (nonnegative : 0 ≤ indent) (fits : ∀ node ∈ root.walk, node.FitsLine) :
    readOutline (root.outline indent) = root.levels indent := by
  have separate : ∀ text ∈ ((root.levels indent).map line).map String.toList,
      '\n' ∉ text := by
    rw [List.map_map, List.forall_mem_map]
    intro entry member
    exact notMem_line (fits_of_mem_levels fits member).1
  have given : ((root.levels indent).map line).map String.toList ≠ [] := by
    rw [levels_eq]
    exact List.cons_ne_nil _ _
  have reads : ∀ entry ∈ root.levels indent, readLine (line entry).toList = entry := by
    intro entry member
    have deep := le_of_mem_levelsOfAll
      ((levelsOfAll_singleton indent root).symm ▸ member)
    exact readLine_line (Int.le_trans nonnegative deep)
      (fits_of_mem_levels fits member).2
  have cut := List.splitOn_intercalate '\n' separate given
  calc readOutline (root.outline indent)
      = (((root.levels indent).map line).map String.toList).map readLine := by
        rw [readOutline, outline_eq, String.toList_intercalate]
        exact congrArg (List.map readLine) cut
    _ = (root.levels indent).map fun entry => readLine (line entry).toList := by
        rw [List.map_map, List.map_map]
        rfl
    _ = root.levels indent := by
        rw [List.map_congr_left reads, List.map_id']

/-! ### Shapes -/

private theorem takeWhile_deeper (depth : Int) (children rest : List CallNode) :
    (levelsOfAll (depth + 1) children ++ levelsOfAll depth rest).takeWhile
        (fun entry => decide (depth < entry.1)) =
      levelsOfAll (depth + 1) children := by
  refine (Text.span_append ?_ ?_).1
  · intro entry member
    have deeper := le_of_mem_levelsOfAll member
    exact decide_eq_true (by omega)
  · intro entry isNext
    cases rest with
    | nil =>
        rw [levelsOfAll] at isNext
        cases isNext
    | cons node others =>
        rw [levelsOfAll_cons] at isNext
        cases isNext
        exact decide_eq_false (Int.lt_irrefl depth)

/-- The lines of several trees are cut where the next tree starts. -/
theorem map_levels_of_levelsOfAll {depth : Int} {left right : List CallNode}
    (same : levelsOfAll depth left = levelsOfAll depth right) :
    left.map (levels depth) = right.map (levels depth) := by
  induction left generalizing right with
  | nil =>
      cases right with
      | nil => rfl
      | cons other others =>
          rw [levelsOfAll, levelsOfAll_cons] at same
          cases same
  | cons node rest inductionHypothesis =>
      cases right with
      | nil =>
          rw [levelsOfAll, levelsOfAll_cons] at same
          cases same
      | cons other others =>
          rw [levelsOfAll_cons, levelsOfAll_cons, List.cons.injEq] at same
          obtain ⟨sameEntry, sameTail⟩ := same
          -- what is deeper than the first line is its tree, on both sides
          have sameBelow := congrArg
            (List.takeWhile fun entry => decide (depth < entry.1)) sameTail
          rw [takeWhile_deeper, takeWhile_deeper] at sameBelow
          rw [sameBelow] at sameTail
          rw [List.map_cons, List.map_cons, levels_eq, levels_eq, sameEntry,
            sameBelow, inductionHypothesis (List.append_cancel_left sameTail)]

private theorem label_at_of_levels {depth : Int} {left right : CallNode}
    (same : levels depth left = levels depth right) (position : List Nat) :
    (nodeAt? children position left).map outlineLabel =
      (nodeAt? children position right).map outlineLabel := by
  induction position generalizing depth left right with
  | nil =>
      rw [levels_eq, levels_eq, List.cons.injEq, Prod.mk.injEq] at same
      exact congrArg some same.1.2
  | cons index position inductionHypothesis =>
      rw [levels_eq, levels_eq, List.cons.injEq] at same
      have sameChild := congrArg (fun entries => entries[index]?)
        (map_levels_of_levelsOfAll same.2)
      rw [List.getElem?_map, List.getElem?_map] at sameChild
      rw [nodeAt?, nodeAt?]
      cases leftChild : left.children[index]? with
      | none =>
          rw [leftChild, Option.map_none, eq_comm, Option.map_eq_none_iff] at sameChild
          rw [sameChild]
      | some child =>
          rw [leftChild, Option.map_some, eq_comm, Option.map_eq_some_iff] at sameChild
          obtain ⟨other, found, sameLevels⟩ := sameChild
          rw [found]
          exact inductionHypothesis sameLevels.symm

private theorem levelsOfAll_of_label_at (depth : Int) {left : List CallNode}
    (right : List CallNode)
    (same : ∀ (index : Nat) (position : List Nat),
      (left[index]?.bind (nodeAt? children position)).map outlineLabel =
        (right[index]?.bind (nodeAt? children position)).map outlineLabel) :
    levelsOfAll depth left = levelsOfAll depth right := by
  -- a position below the first tree starts with 0 and goes on in its children,
  -- which are a list of trees again
  induction left using isVisit.forest_induction generalizing depth right with
  | nil =>
      cases right with
      | nil => rfl
      | cons other others => cases same 0 []
  | cons node rest below later =>
      cases right with
      | nil => cases same 0 []
      | cons other others =>
          have sameLabel := Option.some.inj (same 0 [])
          have sameBelow := below (depth + 1) other.children
            fun index position => same 0 (index :: position)
          have sameLater := later depth others
            fun index position => same (index + 1) position
          rw [levelsOfAll_cons, levelsOfAll_cons, sameLabel, sameBelow,
            sameLater]

private theorem levels_eq_iff (depth : Int) {left right : CallNode} :
    levels depth left = levels depth right ↔
      ∀ position, (nodeAt? children position left).map outlineLabel =
        (nodeAt? children position right).map outlineLabel := by
  constructor
  · exact label_at_of_levels
  · intro same
    rw [← levelsOfAll_singleton, ← levelsOfAll_singleton]
    apply levelsOfAll_of_label_at
    intro index position
    cases index with
    | zero => exact same position
    | succ index => rfl

private theorem parts_at_of_labels {left right : CallNode}
    (leftWords : ∀ node ∈ left.walk, ' ' ∉ node.qualifiedName.toList)
    (rightWords : ∀ node ∈ right.walk, ' ' ∉ node.qualifiedName.toList)
    {position : List Nat}
    (same : (nodeAt? children position left).map outlineLabel =
      (nodeAt? children position right).map outlineLabel) :
    (nodeAt? children position left).map parts = (nodeAt? children position right).map parts := by
  cases found : nodeAt? children position left with
  | none =>
      rw [found, Option.map_none, eq_comm, Option.map_eq_none_iff] at same
      rw [same]
  | some node =>
      rw [found, Option.map_some, eq_comm, Option.map_eq_some_iff] at same
      obtain ⟨other, alsoFound, sameLabel⟩ := same
      rw [alsoFound, Option.map_some, Option.map_some, parts_of_outlineLabel
        (leftWords node (mem_walk_of_nodeAt? found))
        (rightWords other (mem_walk_of_nodeAt? alsoFound)) sameLabel.symm]

/-- An outline has a line for each node, and two outlines at the same depth are
equal exactly if the trees have the same positions, with the same labels.  Where
no name has blanks, the labels have the same names and the same marks. -/
theorem outline_determines_tree {left right : CallNode} {indent : Int}
    (nonnegative : 0 ≤ indent) (leftFits : ∀ node ∈ left.walk, node.FitsLine)
    (rightFits : ∀ node ∈ right.walk, node.FitsLine) :
    ((left.outline indent).toList.splitOn '\n').length = left.countNodes ∧
      (left.outline indent = right.outline indent ↔
        ∀ position, (nodeAt? children position left).map outlineLabel =
          (nodeAt? children position right).map outlineLabel) ∧
      ((∀ node ∈ left.walk, ' ' ∉ node.qualifiedName.toList) →
        (∀ node ∈ right.walk, ' ' ∉ node.qualifiedName.toList) →
        left.outline indent = right.outline indent →
        ∀ position, (nodeAt? children position left).map parts =
          (nodeAt? children position right).map parts) := by
  have leftRead := readOutline_outline nonnegative leftFits
  have rightRead := readOutline_outline nonnegative rightFits
  have sameLabels : left.outline indent = right.outline indent ↔
      ∀ position, (nodeAt? children position left).map outlineLabel =
        (nodeAt? children position right).map outlineLabel := by
    rw [← levels_eq_iff indent]
    constructor
    · intro same
      rw [← leftRead, ← rightRead, same]
    · intro same
      rw [outline_eq, outline_eq, same]
  refine ⟨?_, sameLabels, ?_⟩
  · rw [← List.length_map readLine, ← readOutline, leftRead, countNodes, walk,
      ← List.length_map outlineLabel, ← map_snd_levelsOfAll indent,
      List.length_map, levelsOfAll_singleton]
  · intro leftWords rightWords same position
    exact parts_at_of_labels leftWords rightWords (sameLabels.1 same position)

/-- An internal call under a name. -/
def named (name : String) (children : List CallNode) : CallNode :=
  mk { name := .text name } children

def nestedCalls : CallNode :=
  named "pay" [named "check" [named "log" []]]

def flatCalls : CallNode :=
  named "pay" [named "check" [], named "log" []]

/-- The same three labels, one inside the other and side by side. -/
theorem outline_of_nestedCalls :
    (∀ node ∈ nestedCalls.walk, node.FitsLine) ∧
      (∀ node ∈ flatCalls.walk, node.FitsLine) ∧
      ((nestedCalls.outline 1).toList.splitOn '\n').length = 3 ∧
      nestedCalls.outline 1 ≠ flatCalls.outline 1 := by
  have nested : nestedCalls.walk =
      [nestedCalls, named "check" [named "log" []], named "log" []] := by
    simp [walk_eq_cons, visit_eq_flatMap, nestedCalls, named, children]
  have flat : flatCalls.walk =
      [flatCalls, named "check" [], named "log" []] := by
    simp [walk_eq_cons, visit_eq_flatMap, flatCalls, named, children]
  have nestedFits : ∀ node ∈ nestedCalls.walk, node.FitsLine := by
    rw [nested]
    decide
  have flatFits : ∀ node ∈ flatCalls.walk, node.FitsLine := by
    rw [flat]
    decide
  have nonnegative : (0 : Int) ≤ 1 := by decide
  obtain ⟨lines, sameLabels, -⟩ :=
    outline_determines_tree nonnegative nestedFits flatFits
  refine ⟨nestedFits, flatFits, ?_, ?_⟩
  · rw [lines, countNodes, nested]
    rfl
  · intro same
    cases sameLabels.1 same [0, 0]

end ContractAtlas.CallNode
