/-
Collected members.

A successful collection is a derivation: one step per variable, and inside a
struct one derivation for its fields.  Facts about all collected members are
proved along it.
-/

import ContractAtlas.Proofs.Solidity.ArrayWidth
import ContractAtlas.Proofs.Storage.Growth
import ContractAtlas.Storage.Collection

namespace ContractAtlas

/-- A step of a computation that succeeds as a whole succeeds. -/
theorem exists_of_bind_eq_ok {α β : Type} {outcome : Except Fault α}
    {next : α → Except Fault β} {result : β}
    (succeeds : outcome >>= next = .ok result) :
    ∃ value, outcome = .ok value ∧ next value = .ok result := by
  cases outcome with
  | error fault => cases succeeds
  | ok value => exact ⟨value, rfl, succeeds⟩

theorem eq_ok_of_toOption {α : Type} {outcome : Except Fault α} {value : α}
    (found : outcome.toOption = some value) : outcome = .ok value := by
  cases outcome with
  | error fault => cases found
  | ok other => rw [Option.some.inj found]

theorem Member.leavesOfAll_append (left right : List Member) :
    leavesOfAll (left ++ right) = leavesOfAll left ++ leavesOfAll right := by
  induction left with
  | nil => simp only [List.nil_append, leavesOfAll]
  | cons member rest inductionHypothesis =>
      simp only [List.cons_append, leavesOfAll, inductionHypothesis,
        List.append_assoc]

namespace Compilation

variable {compilation : Compilation} {flatten : Bool}

/-- The members of variables, where the path holds the structs that are
open. -/
inductive Collected (compilation : Compilation) (flatten : Bool) :
    Option Provenance → List compilation.Place → List Node → List Member → Prop
  | nil (parent : Option Provenance) (path : List compilation.Place) :
      Collected compilation flatten parent path [] []
  | scalar {parent : Option Provenance} {path : List compilation.Place}
      {declaration : Node} {rest : List Node} {type : String} {size : Nat}
      {others : List Member}
      (typed : variableType declaration = .ok type)
      (plain : TypeName.isStruct type.toList = false)
      (sized : compilation.scalarWidth declaration type = .ok size)
      (later : Collected compilation flatten parent path rest others) :
      Collected compilation flatten parent path (declaration :: rest)
        (.mk (compilation.memberInfo declaration type size parent) none ::
          others)
  | struct {parent : Option Provenance} {path : List compilation.Place}
      {declaration : Node} {rest : List Node} {type : String}
      {struct : compilation.Place} {fields others : List Member}
      (typed : variableType declaration = .ok type)
      (isStruct : TypeName.isStruct type.toList = true)
      (defined :
        compilation.typeDefinition? .structDefinition declaration = some struct)
      (closed : struct ∉ path)
      (inside :
        Collected compilation flatten
          (some
            (parent.getD
              { type := type, name := compilation.nameOf declaration }))
          (struct :: path) (compilation.node struct).structFields fields)
      (later : Collected compilation flatten parent path rest others) :
      Collected compilation flatten parent path (declaration :: rest)
        ((if flatten then fields
          else
            [.mk
              (compilation.memberInfo declaration type TypeName.slotSize parent)
              (some fields)]) ++ others)

theorem collected_of_membersOf {parent : Option Provenance}
    {path : List compilation.Place} {declarations : List Node}
    {members : List Member}
    (succeeds :
      compilation.membersOf flatten parent path declarations = .ok members) :
    Collected compilation flatten parent path declarations members := by
  fun_induction membersOf compilation flatten parent path declarations
    generalizing members with
  | case1 parent path =>
      cases succeeds
      exact .nil parent path
  | case7 parent path declaration rest type typed isStruct struct defined closed
      provenance fields inside others later flat insideHypothesis =>
      rename_i laterHypothesis
      cases succeeds
      have collected :=
        Collected.struct typed isStruct defined closed (insideHypothesis inside)
          (laterHypothesis later)
      rw [if_pos flat] at collected
      exact collected
  | case8 parent path declaration rest type typed isStruct struct defined closed
      provenance fields inside others later nested insideHypothesis =>
      rename_i laterHypothesis
      cases succeeds
      have collected :=
        Collected.struct typed isStruct defined closed (insideHypothesis inside)
          (laterHypothesis later)
      rw [if_neg nested] at collected
      exact collected
  | case11 parent path declaration rest type typed plain size sized others later
      laterHypothesis =>
      cases succeeds
      exact .scalar typed (Bool.eq_false_iff.2 plain) sized
        (laterHypothesis later)
  -- In all other cases the collection fails.
  | case2 | case3 | case4 | case5 | case6 | case9 | case10 => cases succeeds

theorem membersOf_of_collected {parent : Option Provenance}
    {path : List compilation.Place} {declarations : List Node}
    {members : List Member}
    (collected :
      Collected compilation flatten parent path declarations members) :
    compilation.membersOf flatten parent path declarations = .ok members := by
  induction collected with
  | nil parent path => rw [membersOf]
  | scalar typed plain sized later laterHypothesis =>
      rw [membersOf]
      simp only [typed, plain, sized, laterHypothesis, Bool.false_eq_true,
        if_false]
  | struct typed isStruct defined closed inside later insideHypothesis
      laterHypothesis =>
      rw [membersOf]
      simp only [typed, isStruct, defined, closed, insideHypothesis,
        laterHypothesis, if_true, dif_neg, not_false_eq_true]
      cases flatten <;> rfl

/-- The property holds of every variable that has a width and of every struct
without fields. -/
structure HoldsOfLeaves (compilation : Compilation) (holds : Member → Prop) :
    Prop where
  scalar : ∀ declaration type size parent,
    compilation.scalarWidth declaration type = .ok size →
      holds (.mk (compilation.memberInfo declaration type size parent) none)
  empty : ∀ declaration type parent,
    holds
      (.mk (compilation.memberInfo declaration type TypeName.slotSize parent)
        (some []))

theorem Collected.forall_leaves {holds : Member → Prop}
    (rule : compilation.HoldsOfLeaves holds)
    {parent : Option Provenance} {path : List compilation.Place}
    {declarations : List Node} {members : List Member}
    (collected :
      Collected compilation flatten parent path declarations members) :
    ∀ leaf ∈ Member.leavesOfAll members, holds leaf := by
  induction collected with
  | nil parent path =>
      intro leaf impossible
      cases impossible
  | scalar typed plain sized later laterHypothesis =>
      intro leaf found
      rw [Member.leavesOfAll, Member.leaves] at found
      · rcases List.mem_cons.1 found with rfl | inOthers
        · exact rule.scalar _ _ _ _ sized
        · exact laterHypothesis leaf inOthers
      · intro info part rest impossible
        cases impossible
  | @struct parent path declaration rest type struct fields others typed isStruct
      defined closed inside later insideHypothesis laterHypothesis =>
      intro leaf found
      rw [Member.leavesOfAll_append] at found
      rcases List.mem_append.1 found with own | inOthers
      · cases flatten with
        | true => exact insideHypothesis leaf own
        | false =>
            -- Without fields the struct is a leaf itself, as wide as a slot.
            cases fields with
            | nil =>
                simp only [Bool.false_eq_true, if_false, Member.leavesOfAll,
                  Member.leaves, List.append_nil, List.mem_singleton] at own
                rw [own]
                exact rule.empty declaration type parent
            | cons field more =>
                simp only [Bool.false_eq_true, if_false, Member.leavesOfAll,
                  Member.leaves, List.append_nil] at own
                exact insideHypothesis leaf own
      · exact laterHypothesis leaf inOthers

/-! ### Variables one after the other -/

/-- The members and the constants of state variables. -/
inductive Gathered (compilation : Compilation) (flatten : Bool) :
    List Node → List Member → List Constant → Prop
  | nil : Gathered compilation flatten [] [] []
  | free {declaration : Node} {rest : List Node} {constant : Constant}
      {members : List Member} {constants : List Constant}
      (isFree : declaration.isStorageFree = true)
      (described : compilation.constantOf declaration = .ok constant)
      (later : Gathered compilation flatten rest members constants) :
      Gathered compilation flatten (declaration :: rest) members
        (constant :: constants)
  | stored {declaration : Node} {rest : List Node} {own members : List Member}
      {constants : List Constant}
      (isStored : ¬ declaration.isStorageFree = true)
      (collected : Collected compilation flatten none [] [declaration] own)
      (later : Gathered compilation flatten rest members constants) :
      Gathered compilation flatten (declaration :: rest) (own ++ members)
        constants

theorem gathered_of_collectFrom {declarations : List Node}
    {members : List Member} {constants : List Constant}
    (succeeds :
      compilation.collectFrom flatten declarations = .ok (members, constants)) :
    Gathered compilation flatten declarations members constants := by
  induction declarations generalizing members constants with
  | nil =>
      cases succeeds
      exact .nil
  | cons declaration rest inductionHypothesis =>
      rw [collectFrom] at succeeds
      by_cases free : declaration.isStorageFree = true
      · rw [if_pos free] at succeeds
        obtain ⟨constant, described, succeeds⟩ := exists_of_bind_eq_ok succeeds
        obtain ⟨others, later, succeeds⟩ := exists_of_bind_eq_ok succeeds
        cases succeeds
        exact .free free described (inductionHypothesis later)
      · rw [if_neg free] at succeeds
        obtain ⟨own, found, succeeds⟩ := exists_of_bind_eq_ok succeeds
        obtain ⟨others, later, succeeds⟩ := exists_of_bind_eq_ok succeeds
        cases succeeds
        exact .stored free (collected_of_membersOf found)
          (inductionHypothesis later)

theorem collectFrom_of_gathered {declarations : List Node}
    {members : List Member} {constants : List Constant}
    (gathered : Gathered compilation flatten declarations members constants) :
    compilation.collectFrom flatten declarations =
      .ok (members, constants) := by
  induction gathered with
  | nil => rfl
  | free isFree described later laterHypothesis =>
      rw [collectFrom, if_pos isFree, described, laterHypothesis]
      rfl
  | stored isStored collected later laterHypothesis =>
      rw [collectFrom, if_neg isStored, membersOf_of_collected collected,
        laterHypothesis]
      rfl

theorem Gathered.forall_leaves {holds : Member → Prop}
    (rule : compilation.HoldsOfLeaves holds) {declarations : List Node}
    {members : List Member} {constants : List Constant}
    (gathered : Gathered compilation flatten declarations members constants) :
    ∀ leaf ∈ Member.leavesOfAll members, holds leaf := by
  induction gathered with
  | nil =>
      intro leaf impossible
      cases impossible
  | free isFree described later laterHypothesis =>
      exact laterHypothesis
  | stored isStored collected later laterHypothesis =>
      intro leaf found
      rw [Member.leavesOfAll_append] at found
      rcases List.mem_append.1 found with own | inOthers
      · exact collected.forall_leaves rule leaf own
      · exact laterHypothesis leaf inOthers

theorem Gathered.of_append {first second : List Node} {members : List Member}
    {constants : List Constant}
    (gathered :
      Gathered compilation flatten (first ++ second) members constants) :
    ∃ own moreMembers ownConstants moreConstants,
      Gathered compilation flatten first own ownConstants ∧
        members = own ++ moreMembers ∧
        constants = ownConstants ++ moreConstants := by
  induction first generalizing members constants with
  | nil => exact ⟨[], members, [], constants, .nil, rfl, rfl⟩
  | cons declaration rest inductionHypothesis =>
      cases gathered with
      | free isFree described later =>
          obtain ⟨own, moreMembers, ownConstants, moreConstants, front, same,
            sameConstants⟩ := inductionHypothesis later
          refine ⟨own, moreMembers, _, moreConstants,
            .free isFree described front, same, ?_⟩
          rw [sameConstants, List.cons_append]
      | stored isStored collected later =>
          obtain ⟨own, moreMembers, ownConstants, moreConstants, front, same,
            sameConstants⟩ := inductionHypothesis later
          refine ⟨_, moreMembers, ownConstants, moreConstants,
            .stored isStored collected front, ?_, sameConstants⟩
          rw [same, List.append_assoc]

theorem collectFrom_append {first second : List Node} {members : List Member}
    {constants : List Constant}
    (succeeds :
      compilation.collectFrom flatten (first ++ second) =
        .ok (members, constants)) :
    ∃ own moreMembers ownConstants moreConstants,
      compilation.collectFrom flatten first = .ok (own, ownConstants) ∧
        members = own ++ moreMembers ∧
        constants = ownConstants ++ moreConstants := by
  obtain ⟨own, moreMembers, ownConstants, moreConstants, front, same⟩ :=
    (gathered_of_collectFrom succeeds).of_append
  exact ⟨own, moreMembers, ownConstants, moreConstants,
    collectFrom_of_gathered front, same⟩

/-! ### Arrays among the members -/

theorem scalarWidth_of_isArray {declaration : Node} {type : String}
    (array : TypeName.isArray type.toList = true) :
    compilation.scalarWidth declaration type = .ok TypeName.slotSize := by
  have own : compilation.sizingType declaration type = .ok (.str type) := by
    rw [sizingType, if_pos array]
  rw [scalarWidth, own]
  exact TypeName.readWidth_of_isArray _ array

/-- A normal type text that is not declared by the user gives its own width. -/
theorem scalarWidth_of_normal {declaration : Node} {type : String} {bytes : Nat}
    (normal : TypeName.normalize type.toList = type.toList)
    (builtIn : compilation.underlyingType? declaration = none)
    (given : type.isEmpty = false)
    (short : Text.isOverlong (TypeName.widthDigits type.toList) = false)
    (known : TypeName.normalWidth? type.toList = .ok (some bytes)) :
    compilation.scalarWidth declaration type = .ok bytes := by
  have own : compilation.sizingType declaration type = .ok (.str type) := by
    rw [sizingType, builtIn]
    exact ite_self _
  rw [scalarWidth, own]
  simp only [TypeName.readWidth, TypeName.width, normal, short, given, known,
    Bool.false_eq_true, if_false]

private theorem width_slotSize (declaration : Node) (type : String)
    (parent : Option Provenance) (parts : Option (List Member)) :
    (Member.mk (compilation.memberInfo declaration type TypeName.slotSize parent)
      parts).width = TypeName.slotSize :=
  rfl

theorem holdsOfLeaves_arrayFillsSlot :
    compilation.HoldsOfLeaves Member.ArrayFillsSlot where
  scalar := by
    intro declaration type size parent sized array
    have full : compilation.scalarWidth declaration type =
        .ok TypeName.slotSize := scalarWidth_of_isArray array
    rw [full] at sized
    rw [← Except.ok.inj sized]
    exact width_slotSize declaration type parent none
  empty := by
    intro declaration type parent _
    exact width_slotSize declaration type parent (some [])

/-- Every leaf that a contract's variables give fills its slot if it is an
array. -/
theorem arrayFillsSlot_of_collectFrom {declarations : List Node}
    {members : List Member} {constants : List Constant}
    (succeeds :
      compilation.collectFrom flatten declarations = .ok (members, constants)) :
    ∀ leaf ∈ Member.leavesOfAll members, leaf.ArrayFillsSlot :=
  (gathered_of_collectFrom succeeds).forall_leaves holdsOfLeaves_arrayFillsSlot

end Compilation

end ContractAtlas
