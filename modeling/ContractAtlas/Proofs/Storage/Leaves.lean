/-
Leaf fields.

Opening the structs of a variable all the way down leaves its leaf fields, in
the order of the declarations.  With flattening the members of a contract are
these fields, and a field inside a struct variable has that variable as its
parent.  Without flattening the fields are the parts at the end of the members,
so whether some array length is too long to be read is the same for both.
-/

import ContractAtlas.Proofs.Solidity.ArrayLength
import ContractAtlas.Proofs.Storage.ArraySlots
import ContractAtlas.Proofs.Storage.Sizing

namespace ContractAtlas

private theorem TypeName.dimensionFault?_of_isStruct {text : List Char}
    (isStruct : TypeName.isStruct text = true) :
    TypeName.dimensionFault? text = none := by
  cases found : TypeName.dimensionFault? text with
  | none => rfl
  | some fault =>
      have array := TypeName.isArray_of_dimensionFault? found
      simp only [TypeName.isStruct, Bool.and_eq_true, Bool.not_eq_true'] at isStruct
      obtain ⟨starts, notArray⟩ := isStruct
      -- A text that starts as a struct and ends as an array is normal already.
      obtain ⟨rest, shape⟩ : ∃ rest, TypeName.normalize text = 's' :: rest := by
        rw [TypeName.startsWith, List.isPrefixOf_iff_prefix] at starts
        obtain ⟨rest, same⟩ := starts
        exact ⟨_, same.symm⟩
      simp only [TypeName.isArray, Bool.and_eq_true] at array
      have closing := (TypeName.endsWith_iff _ _).1 array.2
      rw [shape] at closing
      have normal := TypeName.normalize_of_bracket (by decide) closing
      rw [← shape] at normal
      simp only [TypeName.isArray, normal, array.1, array.2, Bool.and_self] at notArray
      cases notArray

/-- The fault of a member whose array length cannot be read. -/
def Member.dimensionFault? (member : Member) : Option Fault :=
  TypeName.dimensionFault? member.info.type.toList

namespace Compilation

variable {compilation : Compilation} {flatten : Bool}

/-! ### Opening structs -/

/-- The struct that a declaration opens. -/
def structOf? (compilation : Compilation) (declaration : Node) :
    Option compilation.Place :=
  match variableType declaration with
  | .ok type =>
      if TypeName.isStruct type.toList then
        compilation.typeDefinition? .structDefinition declaration
      else none
  | .error _ => none

/-- The declarations that are left when all structs are opened. -/
def leafFields (compilation : Compilation) (path : List compilation.Place) :
    List Node → List Node
  | [] => []
  | declaration :: rest =>
      match compilation.structOf? declaration with
      | none => declaration :: leafFields compilation path rest
      | some struct =>
          if _open : struct ∈ path then leafFields compilation path rest
          else
            leafFields compilation (struct :: path)
                (compilation.node struct).structFields ++
              leafFields compilation path rest
termination_by declarations =>
  (compilation.unvisited path, declarations.length)
decreasing_by
  · exact Prod.Lex.right _ (Nat.lt_succ_self _)
  · exact Prod.Lex.right _ (Nat.lt_succ_self _)
  · exact Prod.Lex.left _ _ (compilation.unvisited_cons_lt _open)
  · exact Prod.Lex.right _ (Nat.lt_succ_self _)

theorem leafFields_scalar {path : List compilation.Place} {declaration : Node}
    {type : String} (typed : variableType declaration = .ok type)
    (plain : TypeName.isStruct type.toList = false) (rest : List Node) :
    compilation.leafFields path (declaration :: rest) =
      declaration :: compilation.leafFields path rest := by
  have notStruct : compilation.structOf? declaration = none := by
    simp only [structOf?, typed, plain, Bool.false_eq_true, if_false]
  rw [leafFields]
  simp only [notStruct]

private theorem leafFields_struct {path : List compilation.Place}
    {declaration : Node}
    {type : String} {struct : compilation.Place}
    (typed : variableType declaration = .ok type)
    (isStruct : TypeName.isStruct type.toList = true)
    (defined :
      compilation.typeDefinition? .structDefinition declaration = some struct)
    (closed : struct ∉ path) (rest : List Node) :
    compilation.leafFields path (declaration :: rest) =
      compilation.leafFields (struct :: path)
          (compilation.node struct).structFields ++
        compilation.leafFields path rest := by
  have opened : compilation.structOf? declaration = some struct := by
    simp only [structOf?, typed, isStruct, defined, if_true]
  rw [leafFields]
  simp only [opened, closed, dif_neg, not_false_eq_true]

/-! ### Flattened members -/

/-- The member of a leaf field. -/
def IsLeafMember (compilation : Compilation) (member : Member) (leaf : Node)
    (parent : Option Provenance) : Prop :=
  ∃ type size, variableType leaf = .ok type ∧
    compilation.scalarWidth leaf type = .ok size ∧
    member = .mk (compilation.memberInfo leaf type size parent) none

/-- What the leaf fields of a state variable have as their parent: the
variable, if it is a struct. -/
def provenanceOf (compilation : Compilation) (declaration : Node) :
    Option Provenance :=
  match variableType declaration with
  | .ok type =>
      if TypeName.isStruct type.toList then
        some { type := type, name := compilation.nameOf declaration }
      else none
  | .error _ => none

/-- The leaf fields of state variables, each with its parent. -/
def storageLeaves (compilation : Compilation) (declarations : List Node) :
    List (Node × Option Provenance) :=
  (declarations.filter fun declaration => !declaration.isStorageFree).flatMap
    fun declaration =>
      (compilation.leafFields [] [declaration]).map fun leaf =>
        (leaf, compilation.provenanceOf declaration)

theorem Collected.leafMembers {parent : Option Provenance}
    {path : List compilation.Place} {declarations : List Node}
    {members : List Member}
    (collected : Collected compilation true parent path declarations members)
    {outermost : Provenance} (inside : parent = some outermost) :
    List.Forall₂
      (fun member leaf =>
        compilation.IsLeafMember member leaf (some outermost))
      members (compilation.leafFields path declarations) := by
  induction collected with
  | nil parent path =>
      rw [leafFields]
      exact .nil
  | scalar typed plain sized later laterHypothesis =>
      rw [leafFields_scalar typed plain, inside]
      exact .cons ⟨_, _, typed, sized, rfl⟩ (laterHypothesis inside)
  | struct typed isStruct defined closed fields later fieldsHypothesis
      laterHypothesis =>
      rw [leafFields_struct typed isStruct defined closed, if_pos rfl]
      apply List.rel_append
      · apply fieldsHypothesis
        rw [inside, Option.getD_some]
      · exact laterHypothesis inside

private theorem Collected.leafMembers_single {declaration : Node}
    {members : List Member}
    (collected :
      Collected compilation true none [] [declaration] members) :
    List.Forall₂
      (fun member leaf =>
        compilation.IsLeafMember member leaf (compilation.provenanceOf declaration))
      members (compilation.leafFields [] [declaration]) := by
  cases collected with
  | scalar typed plain sized later =>
      cases later
      have own : compilation.provenanceOf declaration = none := by
        simp only [provenanceOf, typed, plain, Bool.false_eq_true, if_false]
      rw [leafFields_scalar typed plain, leafFields, own]
      exact .cons ⟨_, _, typed, sized, rfl⟩ .nil
  | struct typed isStruct defined closed inside later =>
      cases later
      have own := inside.leafMembers rfl
      rw [leafFields_struct typed isStruct defined closed, leafFields,
        List.append_nil, if_pos rfl, List.append_nil]
      simp only [provenanceOf, typed, isStruct, if_true]
      exact own

private theorem storageLeaves_free {declaration : Node}
    (free : declaration.isStorageFree = true) (rest : List Node) :
    compilation.storageLeaves (declaration :: rest) =
      compilation.storageLeaves rest := by
  simp only [storageLeaves, List.filter_cons, free, Bool.not_true,
    Bool.false_eq_true, if_false]

theorem storageLeaves_stored {declaration : Node}
    (stored : ¬ declaration.isStorageFree = true) (rest : List Node) :
    compilation.storageLeaves (declaration :: rest) =
      (compilation.leafFields [] [declaration]).map
          (fun leaf => (leaf, compilation.provenanceOf declaration)) ++
        compilation.storageLeaves rest := by
  simp only [storageLeaves, List.filter_cons, stored, Bool.not_false, if_true,
    List.flatMap_cons]

/-- With flattening, the members of variables are their leaf fields. -/
theorem Gathered.leafMembers {declarations : List Node}
    {members : List Member} {constants : List Constant}
    (gathered : Gathered compilation true declarations members constants) :
    List.Forall₂
      (fun member leaf => compilation.IsLeafMember member leaf.1 leaf.2)
      members (compilation.storageLeaves declarations) := by
  induction gathered with
  | nil => exact .nil
  | free isFree described later laterHypothesis =>
      rw [storageLeaves_free isFree]
      exact laterHypothesis
  | stored isStored collected later laterHypothesis =>
      rw [storageLeaves_stored isStored]
      apply List.rel_append
      · rw [List.forall₂_map_right_iff]
        exact collected.leafMembers_single
      · exact laterHypothesis

/-! ### Lengths that cannot be read -/

/-- The fault of a declaration whose array length cannot be read. -/
def dimensionFaultOf (declaration : Node) : Option Fault :=
  match variableType declaration with
  | .ok type => TypeName.dimensionFault? type.toList
  | .error _ => none

theorem Collected.findSome?_leaves {parent : Option Provenance}
    {path : List compilation.Place} {declarations : List Node}
    {members : List Member}
    (collected :
      Collected compilation flatten parent path declarations members) :
    (Member.leavesOfAll members).findSome? Member.dimensionFault? =
      (compilation.leafFields path declarations).findSome?
        dimensionFaultOf := by
  induction collected with
  | nil parent path =>
      rw [leafFields]
      rfl
  | @scalar parent path declaration rest type size others typed plain sized later
      laterHypothesis =>
      have own : dimensionFaultOf declaration =
          TypeName.dimensionFault? type.toList := by
        simp only [dimensionFaultOf, typed]
      rw [leafFields_scalar typed plain, Member.leavesOfAll, Member.leaves]
      · rw [List.singleton_append, List.findSome?_cons, List.findSome?_cons,
          laterHypothesis, own]
        rfl
      · intro info part rest impossible
        cases impossible
  | @struct parent path declaration rest type struct fields others typed isStruct
      defined closed inside later insideHypothesis laterHypothesis =>
      rw [leafFields_struct typed isStruct defined closed,
        Member.leavesOfAll_append, List.findSome?_append, List.findSome?_append,
        laterHypothesis, ← insideHypothesis]
      congr 1
      cases flatten with
      | true => rfl
      | false =>
          cases fields with
          | nil =>
              -- The struct itself is no array.
              have readable : (Member.mk
                  (compilation.memberInfo declaration type TypeName.slotSize
                    parent) (some [])).dimensionFault? = none :=
                TypeName.dimensionFault?_of_isStruct isStruct
              simp only [Bool.false_eq_true, if_false, Member.leavesOfAll,
                Member.leaves, List.append_nil, List.findSome?_cons, readable]
          | cons field more =>
              simp only [Bool.false_eq_true, if_false, Member.leavesOfAll,
                Member.leaves, List.append_nil]

theorem Gathered.findSome?_leaves {declarations : List Node}
    {members : List Member} {constants : List Constant}
    (gathered : Gathered compilation flatten declarations members constants) :
    (Member.leavesOfAll members).findSome? Member.dimensionFault? =
      (compilation.storageLeaves declarations).findSome? fun leaf =>
        dimensionFaultOf leaf.1 := by
  induction gathered with
  | nil => rfl
  | free isFree described later laterHypothesis =>
      rw [storageLeaves_free isFree]
      exact laterHypothesis
  | stored isStored collected later laterHypothesis =>
      rw [storageLeaves_stored isStored, Member.leavesOfAll_append,
        List.findSome?_append, List.findSome?_append, List.findSome?_map,
        laterHypothesis, collected.findSome?_leaves]
      rfl

end Compilation

end ContractAtlas
