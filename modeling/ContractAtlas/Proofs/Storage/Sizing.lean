/-
Variables that can be sized.

A variable is well sized if its type has a width or if it is a struct whose
fields are well sized, where no struct is opened inside itself.  Collecting the
members of variables succeeds exactly if all of them are well sized; otherwise
it stops at the first declaration in pre-order that is not, with the fault of
that declaration.  Every width is one that the packing accepts.
-/

import ContractAtlas.Proofs.Solidity.Widths
import ContractAtlas.Proofs.Storage.Collection

namespace ContractAtlas

namespace Compilation

variable {compilation : Compilation} {flatten : Bool}

private theorem inSlot_of_scalarWidth {declaration : Node} {type : String}
    {size : Nat}
    (sized : compilation.scalarWidth declaration type = .ok size) :
    TypeName.InSlot size := by
  unfold scalarWidth at sized
  split at sized
  · cases sized
  · exact TypeName.inSlot_of_readWidth sized
  · cases sized

private theorem hasValidSize_of_inSlot {size : Nat}
    (inSlot : TypeName.InSlot size)
    (declaration : Node) (type : String) (parent : Option Provenance)
    (parts : Option (List Member)) :
    (Member.mk (compilation.memberInfo declaration type size parent)
      parts).HasValidSize := by
  obtain ⟨lower, upper⟩ := inSlot
  refine ⟨size, rfl, ?_, ?_⟩
  · omega
  · omega

theorem holdsOfLeaves_hasValidSize :
    compilation.HoldsOfLeaves Member.HasValidSize where
  scalar := by
    intro declaration type size parent sized
    exact hasValidSize_of_inSlot (inSlot_of_scalarWidth sized) declaration type
      parent none
  empty := by
    intro declaration type parent
    exact hasValidSize_of_inSlot TypeName.inSlot_slotSize declaration type
      parent (some [])

/-! ### Well sized and offending declarations -/

/-- The declaration has a width, or is a struct of such declarations.  The path
holds the structs that are open. -/
inductive WellSized (compilation : Compilation) :
    List compilation.Place → Node → Prop
  | scalar {path : List compilation.Place} {declaration : Node} {type : String}
      {size : Nat} (typed : variableType declaration = .ok type)
      (plain : TypeName.isStruct type.toList = false)
      (sized : compilation.scalarWidth declaration type = .ok size) :
      WellSized compilation path declaration
  | struct {path : List compilation.Place} {declaration : Node} {type : String}
      {struct : compilation.Place}
      (typed : variableType declaration = .ok type)
      (isStruct : TypeName.isStruct type.toList = true)
      (defined :
        compilation.typeDefinition? .structDefinition declaration = some struct)
      (closed : struct ∉ path)
      (fields : ∀ field ∈ (compilation.node struct).structFields,
        WellSized compilation (struct :: path) field) :
      WellSized compilation path declaration

/-- The first declaration in pre-order that is not well sized has this
fault. -/
inductive FirstFault (compilation : Compilation) :
    List compilation.Place → List Node → Fault → Prop
  | untyped {path : List compilation.Place} {declaration : Node}
      {rest : List Node} {fault : Fault}
      (failed : variableType declaration = .error fault) :
      FirstFault compilation path (declaration :: rest) fault
  | unsized {path : List compilation.Place} {declaration : Node}
      {rest : List Node} {type : String} {fault : Fault}
      (typed : variableType declaration = .ok type)
      (plain : TypeName.isStruct type.toList = false)
      (failed : compilation.scalarWidth declaration type = .error fault) :
      FirstFault compilation path (declaration :: rest) fault
  | unresolved {path : List compilation.Place} {declaration : Node}
      {rest : List Node} {type : String}
      (typed : variableType declaration = .ok type)
      (isStruct : TypeName.isStruct type.toList = true)
      (undefined :
        compilation.typeDefinition? .structDefinition declaration = none) :
      FirstFault compilation path (declaration :: rest)
        (.structUnresolved declaration.name type)
  | recursive {path : List compilation.Place} {declaration : Node}
      {rest : List Node} {type : String} {struct : compilation.Place}
      (typed : variableType declaration = .ok type)
      (isStruct : TypeName.isStruct type.toList = true)
      (defined :
        compilation.typeDefinition? .structDefinition declaration = some struct)
      (isOpen : struct ∈ path) :
      FirstFault compilation path (declaration :: rest)
        (.structRecursive (compilation.node struct).canonicalName)
  | field {path : List compilation.Place} {declaration : Node}
      {rest : List Node} {type : String} {struct : compilation.Place}
      {fault : Fault} (typed : variableType declaration = .ok type)
      (isStruct : TypeName.isStruct type.toList = true)
      (defined :
        compilation.typeDefinition? .structDefinition declaration = some struct)
      (closed : struct ∉ path)
      (inside :
        FirstFault compilation (struct :: path)
          (compilation.node struct).structFields fault) :
      FirstFault compilation path (declaration :: rest) fault
  | later {path : List compilation.Place} {declaration : Node}
      {rest : List Node} {fault : Fault}
      (first : WellSized compilation path declaration)
      (others : FirstFault compilation path rest fault) :
      FirstFault compilation path (declaration :: rest) fault

theorem Collected.wellSized {parent : Option Provenance}
    {path : List compilation.Place} {declarations : List Node}
    {members : List Member}
    (collected :
      Collected compilation flatten parent path declarations members) :
    ∀ declaration ∈ declarations, WellSized compilation path declaration := by
  induction collected with
  | nil parent path =>
      intro declaration impossible
      cases impossible
  | scalar typed plain sized later laterHypothesis =>
      intro declaration member
      rcases List.mem_cons.1 member with rfl | inRest
      · exact .scalar typed plain sized
      · exact laterHypothesis declaration inRest
  | struct typed isStruct defined closed inside later insideHypothesis
      laterHypothesis =>
      intro declaration member
      rcases List.mem_cons.1 member with rfl | inRest
      · exact .struct typed isStruct defined closed insideHypothesis
      · exact laterHypothesis declaration inRest

/-- A declaration adds its own members in front of those of the others, and
lets their faults through. -/
def Contributes (compilation : Compilation) (path : List compilation.Place)
    (declaration : Node) : Prop :=
  ∀ flatten parent, ∃ own, ∀ rest,
    compilation.membersOf flatten parent path (declaration :: rest) =
      (compilation.membersOf flatten parent path rest).map (own ++ ·)

private theorem exists_membersOf_of_contributes {path : List compilation.Place}
    {declarations : List Node} (flatten : Bool) (parent : Option Provenance)
    (contribute : ∀ declaration ∈ declarations,
      compilation.Contributes path declaration) :
    ∃ members,
      compilation.membersOf flatten parent path declarations = .ok members := by
  induction declarations with
  | nil => exact ⟨[], by rw [membersOf]⟩
  | cons declaration rest inductionHypothesis =>
      obtain ⟨own, adds⟩ :=
        contribute declaration List.mem_cons_self flatten parent
      obtain ⟨others, collected⟩ := inductionHypothesis fun other later =>
        contribute other (List.mem_cons_of_mem declaration later)
      refine ⟨own ++ others, ?_⟩
      rw [adds, collected]
      rfl

private theorem WellSized.contributes {path : List compilation.Place}
    {declaration : Node} (sized : WellSized compilation path declaration) :
    compilation.Contributes path declaration := by
  induction sized with
  | @scalar path declaration type size typed plain sized =>
      intro flatten parent
      refine ⟨[.mk (compilation.memberInfo declaration type size parent) none],
        ?_⟩
      intro rest
      rw [membersOf]
      simp only [typed, plain, sized, Bool.false_eq_true, if_false]
      cases compilation.membersOf flatten parent path rest <;> rfl
  | @struct path declaration type struct typed isStruct defined closed fields
      fieldsHypothesis =>
      intro flatten parent
      obtain ⟨inner, collected⟩ :=
        exists_membersOf_of_contributes flatten
          (some
            (parent.getD
              { type := type, name := compilation.nameOf declaration }))
          fieldsHypothesis
      refine ⟨if flatten then inner
        else
          [.mk (compilation.memberInfo declaration type TypeName.slotSize parent)
            (some inner)], ?_⟩
      intro rest
      rw [membersOf]
      simp only [typed, isStruct, defined, closed, collected, if_true, dif_neg,
        not_false_eq_true]
      cases compilation.membersOf flatten parent path rest with
      | error fault => rfl
      | ok others => cases flatten <;> rfl

/-- Members can be collected exactly from well sized declarations. -/
theorem exists_membersOf_iff {parent : Option Provenance}
    {path : List compilation.Place} {declarations : List Node} :
    (∃ members,
        compilation.membersOf flatten parent path declarations = .ok members) ↔
      ∀ declaration ∈ declarations,
        WellSized compilation path declaration := by
  constructor
  · rintro ⟨members, collected⟩
    exact (collected_of_membersOf collected).wellSized
  · intro sized
    apply exists_membersOf_of_contributes flatten parent
    intro declaration member
    exact (sized declaration member).contributes

private theorem firstFault_of_membersOf {parent : Option Provenance}
    {path : List compilation.Place} {declarations : List Node} {fault : Fault}
    (failed :
      compilation.membersOf flatten parent path declarations = .error fault) :
    FirstFault compilation path declarations fault := by
  fun_induction membersOf compilation flatten parent path declarations with
  | case2 parent path declaration rest other untyped =>
      cases failed
      exact .untyped untyped
  | case3 parent path declaration rest type typed isStruct undefined =>
      cases failed
      exact .unresolved typed isStruct undefined
  | case4 parent path declaration rest type typed isStruct struct defined isOpen =>
      cases failed
      exact .recursive typed isStruct defined isOpen
  | case5 parent path declaration rest type typed isStruct struct defined closed
      provenance other inside insideHypothesis =>
      cases failed
      exact .field typed isStruct defined closed (insideHypothesis inside)
  | case6 parent path declaration rest type typed isStruct struct defined closed
      provenance fields inside other later insideHypothesis =>
      rename_i laterHypothesis
      cases failed
      have sized := (collected_of_membersOf inside).wellSized
      exact .later (.struct typed isStruct defined closed sized)
        (laterHypothesis later)
  | case9 parent path declaration rest type typed plain other unsized =>
      cases failed
      exact .unsized typed (Bool.eq_false_iff.2 plain) unsized
  | case10 parent path declaration rest type typed plain size sized other later
      laterHypothesis =>
      cases failed
      exact .later (.scalar typed (Bool.eq_false_iff.2 plain) sized)
        (laterHypothesis later)
  -- In the remaining cases the collection succeeds.
  | case1 | case7 | case8 | case11 => cases failed

theorem FirstFault.membersOf {path : List compilation.Place}
    {declarations : List Node} {fault : Fault}
    (stops : FirstFault compilation path declarations fault)
    (flatten : Bool) (parent : Option Provenance) :
    compilation.membersOf flatten parent path declarations = .error fault := by
  induction stops generalizing parent with
  | untyped failed =>
      rw [Compilation.membersOf]
      simp only [failed]
  | unsized typed plain failed =>
      rw [Compilation.membersOf]
      simp only [typed, plain, failed, Bool.false_eq_true, if_false]
  | unresolved typed isStruct undefined =>
      rw [Compilation.membersOf]
      simp only [typed, isStruct, undefined, if_true]
  | recursive typed isStruct defined isOpen =>
      rw [Compilation.membersOf]
      simp only [typed, isStruct, defined, isOpen, if_true, dif_pos]
  | field typed isStruct defined closed inside insideHypothesis =>
      rw [Compilation.membersOf]
      simp only [typed, isStruct, defined, closed, insideHypothesis, if_true,
        dif_neg, not_false_eq_true]
  | later first others othersHypothesis =>
      obtain ⟨own, adds⟩ := first.contributes flatten parent
      rw [adds, othersHypothesis]
      rfl

/-- Otherwise the fault is that of the first declaration that is not well
sized. -/
theorem membersOf_eq_error_iff {parent : Option Provenance}
    {path : List compilation.Place} {declarations : List Node} {fault : Fault} :
    compilation.membersOf flatten parent path declarations = .error fault ↔
      FirstFault compilation path declarations fault := by
  constructor
  · exact firstFault_of_membersOf
  · intro stops
    exact stops.membersOf flatten parent

end Compilation

end ContractAtlas
